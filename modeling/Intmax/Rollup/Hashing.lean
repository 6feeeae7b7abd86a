import Intmax.Rollup.State

/-! # Hash preimages of `IntmaxRollup`

Every digest the rollup computes, byte for byte as the source packs it.
-/

namespace Intmax.Rollup

variable [Keccak]

/-! ## Pending-chain checkpoints -/

/-- The 64 bytes hashed into the pin of a pair of chains. -/
def pinPreimage (depositChain registrationChain : Bytes32) : Bytes :=
  packBytes32 depositChain ++ packBytes32 registrationChain

def pendingChainsPin (depositChain registrationChain : Bytes32) : Bytes32 :=
  keccak256 (pinPreimage depositChain registrationChain)

/-- A presence bit, then the two 64-bit counts. -/
def packCounts (depositCount channelRegCount : Nat) : Nat :=
  1 ||| (depositCount <<< 1) ||| (channelRegCount <<< 65)

def packedDepositCount (packed : Nat) : Nat := (packed >>> 1) % 2 ^ 64
def packedRegCount (packed : Nat) : Nat := (packed >>> 65) % 2 ^ 64

/-! ## Blocks and deposits -/

def computeBlockHash (prevHash : Bytes32) (block : SubBlock)
    (blockDepositHashChain blockChannelRegHashChain : Bytes32) : Bytes32 :=
  keccak256 (packBytes32 prevHash ++ packUint32 block.channelId ++ packUint64 block.timestamp ++
    block.keyIds.flatMap packUint32 ++ packBytes32 block.txTreeRoot ++
    packBytes32 blockDepositHashChain ++ packBytes32 blockChannelRegHashChain)

def depositPreimage (prevHash : Bytes32) (record : DepositRecord) : Bytes :=
  packBytes32 prevHash ++ (packAddress record.depositor ++ (packBytes32 record.recipient ++
    (packUint32 record.tokenIndex ++ (packBytes32 record.amount ++ packBytes32 record.auxData))))

def computeDepositHash (prevHash : Bytes32) (record : DepositRecord) : Bytes32 :=
  keccak256 (depositPreimage prevHash record)

/-! ## Channel registrations -/

def maxChannelMembers : Nat := 8
def minChannelMembers : Nat := 2
def burnChannelId : ChannelId := 0xFFFFFFFF
def closeMemberSetDomain : BitVec 32 := 0x494d434d

/-- What one accepted `registerChannel` folds into the registration chain. -/
structure ChannelRegistration where
  channelId : ChannelId
  bpMemberSlot : BitVec 8
  members : List MemberSlot
  deriving DecidableEq

def packMemberSlot (slot : MemberSlot) : Bytes :=
  packBytes32 slot.pkG ++ (packBytes32 slot.pkB ++
    (packBytes32 slot.regevPkDigest ++ packAddress slot.recipient))

/-- A slot past the active members contributes zeros. -/
def paddingSlot : MemberSlot := ⟨0, 0, 0, 0⟩

/-- The slot stream is always eight slots wide. -/
def paddedSlots (members : List MemberSlot) : List MemberSlot :=
  (List.range maxChannelMembers).map fun i => members.getD i paddingSlot

def channelRegPreimage (prevHash : Bytes32) (reg : ChannelRegistration) : Bytes :=
  packBytes32 prevHash ++ (packUint32 reg.channelId ++ (packUint32 (reg.bpMemberSlot.setWidth 32) ++
    (packUint32 (BitVec.ofNat 32 reg.members.length) ++ (packUint32 0 ++
      (paddedSlots reg.members).flatMap packMemberSlot))))

def channelRegHash (prevHash : Bytes32) (reg : ChannelRegistration) : Bytes32 :=
  keccak256 (channelRegPreimage prevHash reg)

def closeMemberSetCommitment (memberPkGs : List Bytes32) : Bytes32 :=
  keccak256 (packUint32 closeMemberSetDomain ++ packUint32 (BitVec.ofNat 32 memberPkGs.length) ++
    ((List.range maxChannelMembers).map fun i => memberPkGs.getD i 0).flatMap packBytes32)

/-! ## Proof public inputs -/

def computeValidityPIHash (pis : ValidityPublicInputs) : Bytes32 :=
  keccak256 (packUint64 pis.initialBlockNumber ++ packBytes32 pis.initialBlockChain ++
    packBytes32 pis.initialExtCommitment ++ packUint64 pis.finalBlockNumber ++
    packBytes32 pis.finalBlockChain ++ packBytes32 pis.finalExtCommitment ++ packAddress pis.prover)

def mlePublicInputsMatch (publicInputs : List Nat) (piHash : Bytes32) : Bool :=
  publicInputs.length == 8 && limbsMatchBytes32 publicInputs 0 piHash

def foldWithdrawalLeaf (prev : Bytes32) (w : Withdrawal) : Bytes32 :=
  keccak256 (packBytes32 prev ++ packAddress w.recipient ++ packUint32 w.tokenIndex ++
    packBytes32 w.amount ++ packBytes32 w.nullifier ++ packBytes32 w.auxData)

/-- The top three bits of the digest are cleared. -/
def withdrawalPisHash (withdrawalHash : Bytes32) (prover : Address) (extCommitment : Bytes32)
    (blockNumber : Nat) : Bytes32 :=
  keccak256 (packBytes32 withdrawalHash ++ packAddress prover ++ packBytes32 extCommitment ++
    packUint64 (BitVec.ofNat 64 blockNumber)) &&& BitVec.ofNat 256 (2 ^ 253 - 1)

end Intmax.Rollup
