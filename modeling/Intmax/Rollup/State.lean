import Intmax.Contracts.Evm

/-! # State of `IntmaxRollup`

The storage of the rollup, in four groups: the posted chain with its
submissions, the intake of deposits and channel registrations, the money, and
the roles.  A mapping is a function; a deleted entry is the record of defaults.

`status` is the reentrancy latch.  The source keeps a flag; here it also records
which guarded call is waiting for code outside the contract, so that whatever
that code does before the call resumes is a step of its own.
-/

namespace Intmax.Rollup

abbrev Uint256 := BitVec 256

/-! ## Records -/

structure Submission where
  commitment : Bytes32 := 0
  submitter : Address := 0
  finalized : Bool := false
  submittedAtBlock : Nat := 0
  postIndex : Nat := 0
  stateRoot : Bytes32 := 0
  deriving DecidableEq

structure BatchMetadata where
  startBlockNumber : Nat := 0
  endBlockNumber : Nat := 0
  previousBlockHash : Bytes32 := 0
  previousDepositHashChain : Bytes32 := 0
  postingRoundBefore : Nat := 0
  postingRoundAfter : Nat := 0
  processedDepositCountBefore : Nat := 0
  previousChannelRegHashChain : Bytes32 := 0
  deriving DecidableEq

structure Bond where
  balance : Nat := 0
  posted : Nat := 0
  released : Nat := 0
  deriving DecidableEq

structure SubBlock where
  channelId : ChannelId
  timestamp : BitVec 64
  txTreeRoot : Bytes32
  keyIds : List (BitVec 32)
  deriving DecidableEq

structure DepositRecord where
  depositor : Address := 0
  recipient : Bytes32 := 0
  tokenIndex : TokenIndex := 0
  amount : Uint256 := 0
  auxData : Bytes32 := 0
  deriving DecidableEq

/-- One member slot of a channel registration. -/
structure MemberSlot where
  pkG : Bytes32
  pkB : Bytes32
  regevPkDigest : Bytes32
  recipient : Address
  deriving DecidableEq

structure PendingChainsCheckpoint where
  depositHashChain : Bytes32 := 0
  channelRegHashChain : Bytes32 := 0
  packedCounts : Nat := 0
  deriving DecidableEq

structure ValidityPublicInputs where
  initialBlockNumber : BitVec 64
  initialBlockChain : Bytes32
  initialExtCommitment : Bytes32
  finalBlockNumber : BitVec 64
  finalBlockChain : Bytes32
  finalExtCommitment : Bytes32
  prover : Address
  deriving DecidableEq

structure Withdrawal where
  recipient : Address
  tokenIndex : TokenIndex
  amount : Uint256
  nullifier : Bytes32
  auxData : Bytes32
  deriving DecidableEq

/-! ## Storage -/

/-- Constructor arguments and immutables. -/
structure Config where
  self : Address
  deployer : Address
  fraudTreasury : Address
  deploymentChainId : Nat
  genesisStateRoot : Bytes32
  baseStake : Nat
  postStake : Nat
  baseStake_pos : 0 < baseStake
  postStake_pos : 0 < postStake

/-- The posted chain, its submissions and what is finalized of it. -/
structure Chain where
  blockHashChain : Bytes32 := 0
  blockDepositHash : Nat → Bytes32 := fun _ => 0
  blockChannelRegHash : Nat → Bytes32 := fun _ => 0
  blockHashChainAt : Nat → Bytes32 := fun _ => 0
  blockNumber : Nat := 0
  postingRound : Nat := 0
  depositHashChain : Bytes32 := 0
  channelRegHashChain : Bytes32 := 0
  processedDepositCount : Nat := 0
  submissions : Nat → Submission := fun _ => {}
  batchMetadata : Nat → BatchMetadata := fun _ => {}
  nextSubmissionId : Nat := 0
  latestFinalizedStateRoot : Bytes32 := 0
  isFinalizedStateRoot : Bytes32 → Bool := fun _ => false
  latestFinalizedBlockNumber : Nat := 0

/-- Deposits and channel registrations, with every pair of chains they went through. -/
structure Intake where
  depositCount : Nat := 0
  pendingDepositHashChain : Bytes32 := 0
  depositRecords : Nat → DepositRecord := fun _ => {}
  pendingChannelRegHashChain : Bytes32 := 0
  channelRegCount : Nat := 0
  pendingChainsCheckpoints : Bytes32 → PendingChainsCheckpoint := fun _ => {}
  channelMemberSetCommitment : ChannelId → Bytes32 := fun _ => 0
  channelBpMemberSlot : ChannelId → Nat := fun _ => 0
  channelBpPkG : ChannelId → Bytes32 := fun _ => 0

/-- The ETH the contract holds (forced transfers apart) and every claim on value. -/
structure Vault where
  balance : Nat := 0
  totalEscrowed : Nat := 0
  escrowedByToken : TokenIndex → Nat := fun _ => 0
  bonds : Address → Bond := fun _ => {}
  pendingWithdrawals : Address → Nat := fun _ => 0
  pendingTokenWithdrawals : TokenIndex → Address → Nat := fun _ _ => 0
  withdrawalNullifierUsed : Bytes32 → Bool := fun _ => false

/-- A guarded call that has handed control to code outside the contract. -/
inductive Frame
  | payout
  | tokenDeposit (token : Address) (record : DepositRecord) (balBefore : Nat)
  | tokenPayout (token recipient : Address) (amount balanceBefore : Nat)
  deriving DecidableEq

structure Roles where
  status : Option Frame := none
  isRegisteredSettlementManager : Address → Bool := fun _ => false
  channelExitMaterializer : Address := 0
  isBlockProducer : Address → Bool := fun _ => false
  blockProducerAdmin : Address := 0
  kzgVerifier : Address := 0
  tokenAddressOf : TokenIndex → Address := fun _ => 0
  registeredTokenCount : Nat := 0

end Intmax.Rollup

namespace Intmax

/-- The storage of `IntmaxRollup`. -/
structure Rollup where
  chain : Rollup.Chain := {}
  intake : Rollup.Intake := {}
  vault : Rollup.Vault := {}
  roles : Rollup.Roles := {}

end Intmax
