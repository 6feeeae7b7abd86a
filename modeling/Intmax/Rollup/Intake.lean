import Intmax.Rollup.Calls

/-! # Deposits and channel registrations

Both fold a record into a cumulative chain and record the resulting pair of
chains, with its two counts, as a checkpoint under the pair's pin.
-/

namespace Intmax.Rollup

open Checked

variable [Keccak]

def Intake.recordPendingChainsCheckpoint (s : Intake) : Intake :=
  let pin := pendingChainsPin s.pendingDepositHashChain s.pendingChannelRegHashChain
  let checkpoint : PendingChainsCheckpoint :=
    { depositHashChain := s.pendingDepositHashChain
      channelRegHashChain := s.pendingChannelRegHashChain
      packedCounts := packCounts s.depositCount s.channelRegCount }
  { s with
    pendingChainsCheckpoints := Function.update s.pendingChainsCheckpoints pin checkpoint }

/-- The common end of `deposit`, once the value has been received. -/
def Intake.recordDeposit (record : DepositRecord) (s : Intake) : Except Revert Intake := do
  let count ← add 64 Revert.panic s.depositCount 1
  let newHash := computeDepositHash s.pendingDepositHashChain record
  let queued : Intake :=
    { s with
      depositCount := count
      pendingDepositHashChain := newHash
      depositRecords := Function.update s.depositRecords s.depositCount record }
  pure queued.recordPendingChainsCheckpoint

structure DepositArgs where
  recipient : Bytes32
  tokenIndex : TokenIndex
  amount : Uint256
  auxData : Bytes32

def deposit (cfg : Config) (env : Env) (world : External) (args : DepositArgs) (s : Rollup) :
    Except Revert Rollup := do
  requireReleaseRuntime cfg env
  nonReentrant s
  let record : DepositRecord :=
    { depositor := env.sender, recipient := args.recipient, tokenIndex := args.tokenIndex,
      amount := args.amount, auxData := args.auxData }
  if args.tokenIndex = 0 then
    revertIf (env.value ≠ args.amount.toNat) .ethDepositValueMismatch
    let escrowed ← add 256 Revert.panic s.vault.totalEscrowed args.amount.toNat
    let intake ← s.intake.recordDeposit record
    pure { s with intake, vault := { s.vault with totalEscrowed := escrowed } }
  else
    revertIf (env.value ≠ 0) .nonEthDepositMustNotCarryEth
    let token := s.roles.tokenAddressOf args.tokenIndex
    revertIf (token = 0) .tokenIndexNotRegistered
    let balBefore ← getOrRevert (world.tokenBalanceOf token cfg.self) .callReverted
    pure { s with roles := { s.roles with status := some (.tokenDeposit token record balBefore) } }

/-- The end of a token deposit, after the token's `transferFrom` returned. -/
def finishTokenDeposit (cfg : Config) (world : External) (token : Address) (record : DepositRecord)
    (balBefore : Nat) (s : Rollup) : Except Revert Rollup := do
  let balAfter ← getOrRevert (world.tokenBalanceOf token cfg.self) .callReverted
  let received ← sub Revert.panic balAfter balBefore
  revertIf (received ≠ record.amount.toNat) .tokenDepositAmountMismatch
  let escrowed ← add 256 Revert.panic (s.vault.escrowedByToken record.tokenIndex)
    record.amount.toNat
  let escrowedByToken := Function.update s.vault.escrowedByToken record.tokenIndex escrowed
  let intake ← s.intake.recordDeposit record
  pure { s with
    intake
    vault := { s.vault with escrowedByToken }
    roles := { s.roles with status := none } }

def goldilocksModulus : Nat := 0xffffffff00000001

/-- Four big-endian canonical Goldilocks limbs. -/
def canonicalLimbs (x : Bytes32) : Bool :=
  [0, 64, 128, 192].all fun offset =>
    decide ((x.toNat >>> offset) % 2 ^ 64 < goldilocksModulus)

def validIdentities (m : MemberSlot) : Bool :=
  m.pkG != 0 && m.regevPkDigest != 0 && m.recipient != 0 &&
    canonicalLimbs m.pkG && canonicalLimbs m.pkB && canonicalLimbs m.regevPkDigest

/-- The member loop of `registerChannel`: identities, then distinctness from later slots. -/
def checkMembers : List MemberSlot → Except Revert Unit
  | [] => .ok ()
  | m :: rest => do
    revertIf (validIdentities m = false) .memberCountOrArrayLenInvalid
    revertIf (rest.any (fun n => n.pkG == m.pkG) = true) .memberPubkeyHashesNotDistinct
    checkMembers rest

structure RegisterChannelArgs where
  channelId : ChannelId
  bpMemberSlot : BitVec 8
  delegateCount : BitVec 8
  memberPkGs : List Bytes32
  pkBs : List Bytes32
  regevPkDigests : List Bytes32
  recipients : List Address

def RegisterChannelArgs.lengthsInvalid (args : RegisterChannelArgs) : Bool :=
  let memberCount := args.memberPkGs.length
  decide (memberCount < minChannelMembers) || decide (maxChannelMembers < memberCount) ||
    args.pkBs.length != memberCount || args.regevPkDigests.length != memberCount ||
    args.recipients.length != memberCount

/-- The four argument arrays read slot by slot. -/
def RegisterChannelArgs.members (args : RegisterChannelArgs) : List MemberSlot :=
  (List.range args.memberPkGs.length).map fun i =>
    { pkG := args.memberPkGs.getD i 0
      pkB := args.pkBs.getD i 0
      regevPkDigest := args.regevPkDigests.getD i 0
      recipient := args.recipients.getD i 0 }

def RegisterChannelArgs.registration (args : RegisterChannelArgs) : ChannelRegistration :=
  { channelId := args.channelId, bpMemberSlot := args.bpMemberSlot, members := args.members }

/-- Fold an accepted registration into the intake. -/
def Intake.recordRegistration (reg : ChannelRegistration) (s : Intake) : Except Revert Intake := do
  let count ← add 64 Revert.panic s.channelRegCount 1
  let slot := reg.bpMemberSlot.toNat
  let pkGs := reg.members.map (·.pkG)
  let queued : Intake :=
    { s with
      pendingChannelRegHashChain := channelRegHash s.pendingChannelRegHashChain reg
      channelMemberSetCommitment := Function.update s.channelMemberSetCommitment reg.channelId
        (closeMemberSetCommitment pkGs)
      channelBpMemberSlot := Function.update s.channelBpMemberSlot reg.channelId slot
      channelBpPkG := Function.update s.channelBpPkG reg.channelId (pkGs.getD slot 0)
      channelRegCount := count }
  pure queued.recordPendingChainsCheckpoint

def registerChannel (cfg : Config) (env : Env) (args : RegisterChannelArgs) (s : Rollup) :
    Except Revert Rollup := do
  nonPayable env
  requireDeployer cfg env
  revertIf (args.channelId = 0) .channelIdZeroReserved
  revertIf (args.channelId = burnChannelId) .channelIdBurnReserved
  revertIf (args.delegateCount ≠ 0) .delegateCountExceedsActive
  revertIf (s.intake.channelMemberSetCommitment args.channelId ≠ 0) .channelAlreadyRegistered
  revertIf (args.lengthsInvalid = true) .memberCountOrArrayLenInvalid
  revertIf (args.memberPkGs.length ≤ args.bpMemberSlot.toNat) .bpMemberSlotOutOfRange
  checkMembers args.members
  let intake ← s.intake.recordRegistration args.registration
  pure { s with intake }

end Intmax.Rollup
