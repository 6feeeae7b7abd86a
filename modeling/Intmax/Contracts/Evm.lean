import Intmax.Lib.BigEndian
import Intmax.Lib.Keccak
import Intmax.Lib.Checked

/-! # The machine the contracts run on

Words, byte strings, call environments and aborts.  Counters and balances are
naturals with their width checked where the source checks it (or truncated where
the source casts); values that are hashed are bit vectors of their ABI width, so
that their packed image is exact.  A call that reverts leaves no trace, so every
contract function is a computation in `Except Revert`.
-/

namespace Intmax

abbrev Address := BitVec 160
abbrev Bytes32 := BitVec 256
abbrev ChannelId := BitVec 32
abbrev TokenIndex := BitVec 32
abbrev Bytes := List UInt8

/-- The EVM's `keccak256`.  Results that need it collision free say so for the
    strings a run hashes. -/
class Keccak where
  keccak256 : Bytes → Bytes32

export Keccak (keccak256)

/-- The hash function the contracts are deployed with. -/
@[reducible] def evmKeccak : Keccak := ⟨Keccak256.digest⟩

/-- The transaction context a call reads. -/
structure Env where
  sender : Address
  value : Nat
  number : Nat
  timestamp : Nat
  chainId : Nat
  deriving DecidableEq, Repr

/-! ## Aborts -/

/-- Why a call aborts: the contracts' custom errors, under their own names, the
    EVM's arithmetic panic, and a callee outside the model that reverted. -/
inductive Revert
  | panic
  | nonPayable
  | callReverted
  -- IntmaxRollup
  | releaseRuntimeUnavailable | onlyDeployer | reentrantCall
  | ethDepositValueMismatch | nonEthDepositMustNotCarryEth | withdrawTransferFailed
  | kzgVerifierAlreadySet | kzgVerifierNotAContract
  | emptyBatch | invalidStakeAmount | notAuthorizedBlockProducer | notBlockProducerManager
  | blockHeadMoved | pendingChainsMoved | nothingToWithdraw
  | submissionNotFound | alreadyFinalized | commitmentMismatch
  | finalizedHeightRegression | initialStateMismatch | blockChainMismatch
  | finalBlockChainMismatch | finalExtCommitmentMismatch
  | validityPublicInputsMismatch | mleVerificationFailed
  | submissionAlreadyFinalized | submissionBeforeFinalizedBlock | submissionNotYetFinalized
  | mleProofUnevaluable | fraudProofGasStarved | insufficientBond
  | channelIdZeroReserved | channelIdBurnReserved | bpMemberSlotOutOfRange
  | channelAlreadyRegistered | delegateCountExceedsActive
  | memberCountOrArrayLenInvalid | memberPubkeyHashesNotDistinct
  | invalidChannelExitManager
  | withdrawalExtCommitmentMismatch | withdrawalPublicInputsMismatch | withdrawalProofInvalid
  | withdrawalNullifierUsed | withdrawalNotEthToken | withdrawalEmptySet | withdrawalNotErc20Token
  | tokenIndexZeroReservedForEth | tokenIndexAlreadyRegistered | tokenAddressZeroReserved
  | tokenNotAContract | tokenIndexNotRegistered | tokenDepositAmountMismatch
  | nothingToWithdrawForToken | tokenWithdrawalAmountMismatch
  -- ChannelSettlementManager
  | challengePeriodTooShort (supplied required : Nat)
  | invalidParticipantProof | invalidCloseProof | invalidWithdrawalClaimProof
  | invalidCancelProof | invalidPostCloseClaimProof | invalidFreezeNonce
  | closeNotActive | challengeWindowOpen | challengeWindowClosed | closeNotNewer
  | cancelCloseReplay | closeIntentDigestMismatch | nonCanonicalCloseMetadata
  | nullifierAlreadyUsed | withdrawalCapExceeded | noWithdrawalCredit
  | insufficientWithdrawalCredit | withdrawalPayoutRecipientMismatch
  | reentrant | channelAlreadyFrozen | channelClosed | notChannelMember
  | closeNotRequested | gracePeriodNotElapsed | tokenSlotOutOfRange | tokenRegistryMismatch
  | tokenCountOutOfRange | tokenIndexNotRegisteredOnRollup
  | channelFundStateRootNotFinalized (stateRoot : Bytes32)
  | channelFundingMismatch (tokenIndex : TokenIndex) (expected observed : Nat)
  | channelFundsAlreadyReceived (tokenIndex : TokenIndex)
  | closeFundingProofNotMaterialized (tokenIndex : TokenIndex)
  | tokenPayoutAmountMismatch
  deriving DecidableEq, Repr

/-! ## Packed encodings -/

def packBytes32 (x : Bytes32) : Bytes := BigEndian.ofBitVec 32 x
def packAddress (x : Address) : Bytes := BigEndian.ofBitVec 20 x
def packUint64 (x : BitVec 64) : Bytes := BigEndian.ofBitVec 8 x
def packUint32 (x : BitVec 32) : Bytes := BigEndian.ofBitVec 4 x

/-- `abi.encode` of a value type narrower than a word: left padded to 32 bytes. -/
def padLeft32 (bytes : Bytes) : Bytes := List.replicate (32 - bytes.length) 0 ++ bytes

/-! ## Public-input limbs -/

/-- The `i`-th public input, zero past the end (callers check the length first). -/
def limb (limbs : List Nat) (i : Nat) : Nat := limbs.getD i 0

/-- Eight big-endian 32-bit limbs from `off` on, each masked to 32 bits. -/
def maskedLimbsToBytes32 (limbs : List Nat) (off : Nat) : Bytes32 :=
  BitVec.ofNat 256
    ((List.range 8).foldl (fun v i => (v <<< 32) ||| (limb limbs (off + i) % 2 ^ 32)) 0)

/-- The same reading without the mask, in 256-bit arithmetic. -/
def limbsToBytes32 (limbs : List Nat) (off : Nat) : Bytes32 :=
  (List.range 8).foldl (fun v i => (v <<< 32) ||| BitVec.ofNat 256 (limb limbs (off + i))) 0

/-- The limbs from `off` on are exactly the eight big-endian words of `value`. -/
def limbsMatchBytes32 (limbs : List Nat) (off : Nat) (value : Bytes32) : Bool :=
  (List.range 8).all fun i =>
    limb limbs (off + i) == (value.toNat >>> (224 - i * 32)) % 2 ^ 32

end Intmax
