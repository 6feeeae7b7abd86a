import Intmax.Rollup.System

/-! # State of `ChannelSettlementManager`

One manager settles one channel.  Its storage is the close lifecycle (the request,
the pending intent and the challenge clock), the state the close was finalized at,
and the accounts from which members are paid, one for each base token.
-/

namespace Intmax

open Checked

/-- Lifecycle of a channel, as its settlement manager reports it. -/
inductive ChannelLifecycleStatus
  | active
  | closePending
  | closed
  deriving DecidableEq, Repr

namespace Exit

/-- What a contract bound as a settlement manager answers to the satellite's reads.  An
    address without code, or whose getters revert, has no view. -/
structure ManagerView where
  channelId : ChannelId
  registry : Address
  closeFundingMaterializer : Address
  channelStatus : ChannelLifecycleStatus
  closeRequestGeneration : Nat
  finalizedCloseIntentDigest : Bytes32
  finalizedChannelFundIntmaxStateRoot : Bytes32
  finalizedSettledTxChain : Bytes32
  finalizedTokenFundsDigest : Bytes32
  finalizedBalanceStateH1 : Bytes32
  finalizedTokenCount : Nat
  finalizedTokenRegistry : Nat → Option TokenIndex
  finalizedChannelFundAmount : TokenIndex → Nat

/-- Whether some slot below the count holds the token; every slot is read. -/
def tokenRegistered (v : ManagerView) (tokenIndex : TokenIndex) : List Nat → Except Revert Bool
  | [] => .ok false
  | slot :: rest => do
    let token ← getOrRevert (v.finalizedTokenRegistry slot) .callReverted
    let later ← tokenRegistered v tokenIndex rest
    pure (token == tokenIndex || later)

end Exit

end Intmax

namespace Intmax.Settlement

abbrev Uint256 := BitVec 256

/-- Slots of the channel's token registry. -/
abbrev TokenSlot := Fin 10

instance TokenSlot.neZero : NeZero (10 : Nat) := ⟨by decide⟩

/-! ## Records -/

structure MemberBinding where
  pkG : Bytes32
  recipient : Address
  deriving DecidableEq

structure CloseIntent where
  closeNonce : BitVec 64 := 0
  finalEpoch : Nat := 0
  finalSmallBlockNumber : Nat := 0
  closeFreezeNonce : BitVec 64 := 0
  finalChannelStateDigest : Bytes32 := 0
  finalBalanceStateH1 : Bytes32 := 0
  channelFundAmounts : TokenSlot → Uint256 := fun _ => 0
  tokenRegistry : TokenSlot → TokenIndex := fun _ => 0
  tokenCount : Nat := 0
  channelFundIntmaxStateRoot : Bytes32 := 0
  burnTxHash : Bytes32 := 0
  closeWithdrawalDigest : Bytes32 := 0
  snapshotMediumBlockNumber : Nat := 0
  finalStateVersion : Nat := 0
  finalSettledTxChain : Bytes32 := 0
  finalSettledTxAccumulatorRoot : Bytes32 := 0

/-- The pending intent; a deleted one is the record of defaults. -/
structure PendingClose extends CloseIntent where
  active : Bool := false
  challengeDeadline : Nat := 0
  closeIntentDigest : Bytes32 := 0

/-- The application fields a close proof is bound to. -/
structure CloseProofFields where
  channelId : ChannelId
  intent : CloseIntent
  memberSetCommitment : Bytes32
  memberCount : Nat
  minDelegateCount : Nat

structure WithdrawalClaim where
  closeIntentDigest : Bytes32
  memberPkG : Bytes32
  recipient : Address
  userAmountDigest : Bytes32
  amount : BitVec 64
  tokenSlot : Nat
  tokenIndex : TokenIndex
  withdrawalNullifier : Bytes32

structure PostCloseClaim where
  closeIntentDigest : Bytes32
  incomingTxHash : Bytes32
  receiverPkG : Bytes32
  recipient : Address
  amount : BitVec 64
  tokenIndex : TokenIndex

structure CancelCloseRequest where
  closeIntentDigest : Bytes32
  revivedStateVersion : Nat
  revivedChannelStateDigest : Bytes32

structure WithdrawalPayout where
  recipient : Address := 0
  tokenIndex : TokenIndex := 0
  amount : Nat := 0
  deriving DecidableEq

/-! ## Storage -/

/-- Constructor arguments and immutables. -/
structure Config where
  self : Address
  channelId : ChannelId
  challengePeriod : Nat
  registry : Address
  closeFundingMaterializer : Address
  memberBindings : List MemberBinding
  activeDelegateCount : Nat
  activeParticipantCount : Nat
  participantRoot : Bytes32
  channelId_ne_zero : channelId ≠ 0
  challengePeriod_pos : 0 < challengePeriod
  challengePeriod_lt : challengePeriod < 2 ^ 64

/-- The close lifecycle. -/
structure Lifecycle where
  channelStatus : ChannelLifecycleStatus := .active
  currentCloseFreezeNonce : Nat := 0
  closeRequestGeneration : Nat := 0
  closeRequestedAt : Nat := 0
  closeChallengeHorizon : Nat := 0
  highestCancelledRevivedStateVersion : Nat := 0
  pendingClose : PendingClose := {}

/-- The state a close was finalized at. -/
structure Finalized where
  closeIntentDigest : Bytes32 := 0
  channelStateDigest : Bytes32 := 0
  balanceStateH1 : Bytes32 := 0
  burnTxHash : Bytes32 := 0
  closeWithdrawalDigest : Bytes32 := 0
  channelFundIntmaxStateRoot : Bytes32 := 0
  settledTxChain : Bytes32 := 0
  settledTxAccumulatorRoot : Bytes32 := 0
  epoch : Nat := 0
  smallBlockNumber : Nat := 0
  stateVersion : Nat := 0
  tokenRegistry : TokenSlot → TokenIndex := fun _ => 0
  tokenCount : Nat := 0
  tokenFundsDigest : Bytes32 := 0

/-- Caps, receipts and payouts, by base token. -/
structure Accounts where
  finalizedChannelFundAmount : TokenIndex → Nat := fun _ => 0
  lateIncomingFundAmount : TokenIndex → Nat := fun _ => 0
  totalWithdrawn : TokenIndex → Nat := fun _ => 0
  receivedChannelFunds : TokenIndex → Nat := fun _ => 0
  totalCreditedOut : TokenIndex → Nat := fun _ => 0
  withdrawalCredits : TokenIndex → Address → Nat := fun _ _ => 0
  withdrawalPayouts : Bytes32 → WithdrawalPayout := fun _ => {}
  usedWithdrawalNullifiers : Bytes32 → Bool := fun _ => false
  usedSharedNativeNullifiers : Bytes32 → Bool := fun _ => false

/-- A guarded call that has handed control to another contract: a pull waiting for the
    rollup, or a payout waiting for its recipient or token. -/
inductive Frame
  | pull (tokenIndex : TokenIndex) (token : Address) (cap expected balBefore : Nat)
  | nativePayout
  | tokenPayout (token recipient : Address) (amount balanceBefore : Nat)
  deriving DecidableEq

end Intmax.Settlement

namespace Intmax

/-- The storage of `ChannelSettlementManager`. -/
structure Manager where
  lifecycle : Settlement.Lifecycle := {}
  finalized : Settlement.Finalized := {}
  accounts : Settlement.Accounts := {}
  status : Option Settlement.Frame := none

end Intmax

namespace Intmax.Settlement

/-- What the other contracts read of a manager. -/
def view (cfg : Config) (s : Manager) : Exit.ManagerView :=
  { channelId := cfg.channelId
    registry := cfg.registry
    closeFundingMaterializer := cfg.closeFundingMaterializer
    channelStatus := s.lifecycle.channelStatus
    closeRequestGeneration := s.lifecycle.closeRequestGeneration
    finalizedCloseIntentDigest := s.finalized.closeIntentDigest
    finalizedChannelFundIntmaxStateRoot := s.finalized.channelFundIntmaxStateRoot
    finalizedSettledTxChain := s.finalized.settledTxChain
    finalizedTokenFundsDigest := s.finalized.tokenFundsDigest
    finalizedBalanceStateH1 := s.finalized.balanceStateH1
    finalizedTokenCount := s.finalized.tokenCount
    finalizedTokenRegistry := fun i =>
      if h : i < 10 then some (s.finalized.tokenRegistry ⟨i, h⟩) else none
    finalizedChannelFundAmount := s.accounts.finalizedChannelFundAmount }

/-- The manager's calls to its exit satellite.  A freeze reads the manager back while the
    call is under way. -/
structure Satellite (ε : Type) where
  freezeFromManager : Env → Manager → ChannelId → Nat → ε → Except Revert ε
  unfreezeFromManager : Env → ChannelId → Nat → ε → Except Revert ε
  requireSignedHeadBacking : Env → Manager → ChannelId → Bytes32 → Bytes32 → ε →
    Except Revert Unit
  materializedChannelExit : ChannelId → ε → Bytes32

/-- Answers of the rollup's views, of the proof verifiers and of the machine, for one call. -/
structure External where
  isFinalizedStateRoot : Bytes32 → Bool
  tokenAddressOf : TokenIndex → Address
  closeMemberSetCommitment : List Bytes32 → Nat → Bytes32
  closePublicInputs : Bytes → Option (List Nat)
  bindCloseIntentPublicInputs : CloseProofFields → List Nat → Option Bool
  tokenFundsDigest : (TokenSlot → TokenIndex) → Nat → (TokenSlot → Uint256) →
    Option Bytes32
  verifyCancelClose : ChannelId → CancelCloseRequest → Bytes32 → Nat → Bytes → Option Bool
  verifyWithdrawalClaim : ChannelId → Bytes32 → WithdrawalClaim → Bytes → Option Bool
  verifyPostCloseClaim :
    ChannelId → Bytes32 → Bytes32 → Bytes32 → PostCloseClaim → Bytes → Option Bool
  balance : Nat
  tokenBalanceOf : Address → Address → Option Nat
  callSucceeds : Bool

end Intmax.Settlement
