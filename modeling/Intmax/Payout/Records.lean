import Intmax.Rollup.State

/-! # Records of the payout journal

A partial withdrawal is paid by its withdrawal proof alone.  The journal keeps the public
artefacts of the proof, what was about to be sent before each of the two L1 calls (the payout and
the recipient's pull), and what the finalized chain said about each call afterwards.  JSON texts
are parsed and written by code outside the repository; `Serde` names what it does.
-/

namespace Intmax

/-- Two lowercase digits for each byte. -/
def Payout.hexDigits (bytes : List UInt8) : List Char :=
  bytes.flatMap fun b => [Nat.digitChar (b.toNat / 16), Nat.digitChar (b.toNat % 16)]

/-- `0x` and the digits of the big-endian bytes. -/
def Bytes32.toHex (b : Bytes32) : String :=
  "0x" ++ String.ofList (Payout.hexDigits (BigEndian.ofBitVec 32 b))

end Intmax

namespace Intmax.Payout

open Checked
open Rollup (Withdrawal)

inductive PartialWithdrawalPayoutError
  | invalidRequest (text : String)
  | conflict (text : String)
  | snapshot (text : String)
  | locked (text : String)
  | poisoned
  deriving DecidableEq

/-- The error as `Display` renders it. -/
def PartialWithdrawalPayoutError.toText : PartialWithdrawalPayoutError → String
  | invalidRequest text => s!"invalid partial-withdrawal payout request: {text}"
  | conflict text => s!"partial-withdrawal payout conflict: {text}"
  | snapshot text => s!"partial-withdrawal payout snapshot failed verification: {text}"
  | locked text => s!"partial-withdrawal payout snapshot is locked: {text}"
  | poisoned =>
    "payout store is fail-closed after an uncertain persistence result; restart required"

abbrev PResult := Except PartialWithdrawalPayoutError

/-! ## Finality -/

def anvilChainId : Nat := 31337

inductive L1FinalitySource
  | rpcFinalized
  | devnetLatest
  deriving DecidableEq

structure L1FinalizedCheckpoint where
  chainId : Nat
  blockNumber : Nat
  blockHash : Bytes32
  parentHash : Bytes32
  source : L1FinalitySource
  deriving DecidableEq

namespace L1FinalizedCheckpoint

def validate (c : L1FinalizedCheckpoint) : Except String Unit := do
  revertIf (c.chainId = 0) "finalized checkpoint chain id must be nonzero"
  revertIf (c.blockHash = 0) "finalized checkpoint block hash must be nonzero"
  revertIf (c.blockNumber ≠ 0 ∧ c.parentHash = 0)
    "non-genesis finalized checkpoint parent hash must be nonzero"
  revertIf (c.source = .devnetLatest ∧ c.chainId ≠ anvilChainId)
    s!"unfinalized development checkpoint is restricted to chain {anvilChainId}"

def coversReceipt (c : L1FinalizedCheckpoint) (blockNumber : Nat) (blockHash : Bytes32) :
    Except String Unit := do
  c.validate
  revertIf (blockHash = 0) "receipt block hash must be nonzero"
  revertIf (c.blockNumber < blockNumber)
    s!"receipt block {blockNumber} is above durable head {c.blockNumber}"
  revertIf (blockNumber = c.blockNumber ∧ blockHash ≠ c.blockHash)
    "receipt and durable head hashes differ at the same height"

end L1FinalizedCheckpoint

/-! ## Candidates -/

inductive PartialWithdrawalLane
  | native
  | erc20
  deriving DecidableEq

/-- The sizes that are checked; the prover's timings are only reported. -/
structure PartialWithdrawalProofMetrics where
  singleWithdrawalProofBytes : Nat
  withdrawalChainProofBytes : Nat
  withdrawalFinalProofBytes : Nat
  mleJsonBytes : Nat
  deriving DecidableEq

structure BlockProducerReceipt where
  requestId : String
  generation : Nat
  entryHash : Bytes32
  blockNumber : Nat
  timestamp : Nat
  extendedStateCommitment : Bytes32
  bpSigChain : Bytes32
  deriving DecidableEq

structure BlockProducerAnchor where
  generation : Nat
  entryHash : Bytes32
  blockNumber : Nat
  timestamp : Nat
  extendedStateCommitment : Bytes32
  bpSigChain : Bytes32
  deriving DecidableEq

structure PartialWithdrawalProofArtifacts where
  withdrawal : Withdrawal
  withdrawalProver : Address
  payoutJson : String
  withdrawalMleJson : String
  producerAnchor : BlockProducerAnchor
  metrics : PartialWithdrawalProofMetrics
  deriving DecidableEq

structure PreparePartialWithdrawalPayout where
  chainId : Nat
  rollup : Address
  channelId : ChannelId
  signedHeadDigest : Bytes32
  burnBaseNonce : BitVec 32
  producerReceipt : BlockProducerReceipt
  artifacts : PartialWithdrawalProofArtifacts
  deriving DecidableEq

def PreparePartialWithdrawalPayout.nullifier (r : PreparePartialWithdrawalPayout) : Bytes32 :=
  r.artifacts.withdrawal.nullifier

inductive L1CallKind
  | registerSettlementManager
  | withdrawNative
  | withdrawErc20
  | pullNative
  | pullErc20
  deriving DecidableEq

structure L1TransactionReceipt where
  txHash : Bytes32
  blockHash : Bytes32
  blockNumber : Nat
  chainId : Nat
  sender : Address
  target : Address
  success : Bool
  callKind : L1CallKind
  calldataHash : Bytes32
  transactionNonce : Nat
  finalizedCheckpoint : L1FinalizedCheckpoint
  deriving DecidableEq

structure BroadcastIntent where
  caller : Address
  startBlock : Nat
  callerNonce : Nat
  calldataHash : Bytes32
  creditBefore : Nat
  deriving DecidableEq

structure PayoutConfirmation where
  receipt : L1TransactionReceipt
  finalizedAnchorObserved : Bool
  nullifierUsedObserved : Bool
  creditBefore : Nat
  creditAfter : Nat
  deriving DecidableEq

structure PullConfirmation where
  receipt : L1TransactionReceipt
  creditBefore : Nat
  creditAfter : Nat
  deriving DecidableEq

structure PartialWithdrawalCandidate extends PreparePartialWithdrawalPayout where
  candidateId : Bytes32
  lane : PartialWithdrawalLane
  payoutBroadcast : Option BroadcastIntent := none
  payoutTxHashes : List Bytes32 := []
  payoutConfirmation : Option PayoutConfirmation := none
  recipientPullDelegated : Bool := false
  pullBroadcast : Option BroadcastIntent := none
  pullTxHashes : List Bytes32 := []
  pullConfirmation : Option PullConfirmation := none
  deriving DecidableEq

def PartialWithdrawalCandidate.isComplete (c : PartialWithdrawalCandidate) : Bool :=
  c.payoutConfirmation.isSome && (c.pullConfirmation.isSome || c.recipientPullDelegated)

structure PayoutSnapshot where
  version : Nat
  active : Option PartialWithdrawalCandidate
  completedNullifiers : List Bytes32
  deriving DecidableEq

/-! ## JSON -/

structure PayoutJsonWithdrawal where
  recipient : Address
  tokenIndex : TokenIndex
  amount : Nat
  nullifier : Bytes32
  auxData : Bytes32

structure PayoutJson where
  withdrawals : List PayoutJsonWithdrawal
  withdrawalProver : Address
  blockNumber : Nat
  extCommitment : Bytes32

structure CandidateIdentity where
  chainId : Nat
  rollup : Address
  channelId : ChannelId
  signedHeadDigest : Bytes32
  burnBaseNonce : BitVec 32
  producerReceipt : BlockProducerReceipt
  withdrawal : Withdrawal
  withdrawalProver : Address
  producerAnchor : BlockProducerAnchor
  payoutJsonDigest : Bytes32
  mleJsonDigest : Bytes32

/-- What the JSON library makes of the texts and values that the journal gives it.  A snapshot
    that it wrote is read back as it was. -/
class Serde where
  parsePayout : String → Except String PayoutJson
  isObject : String → Except String Bool
  identityToVec : CandidateIdentity → Except String Bytes
  snapshotToVec : PayoutSnapshot → Except String Bytes
  snapshotFromSlice : Bytes → Except String PayoutSnapshot
  fromSlice_toVec : ∀ {disk payload}, snapshotToVec disk = .ok payload →
    snapshotFromSlice payload = .ok disk

/-- `char::is_whitespace`. -/
def isWhitespace (c : Char) : Bool :=
  let code := c.toNat
  (0x09 ≤ code && code ≤ 0x0d) || code == 0x20 || code == 0x85 || code == 0xa0 ||
    code == 0x1680 || (0x2000 ≤ code && code ≤ 0x200a) || code == 0x2028 || code == 0x2029 ||
    code == 0x202f || code == 0x205f || code == 0x3000

/-- `trim().is_empty()`. -/
def isBlank (text : String) : Bool := text.toList.all isWhitespace

def asBytes (text : String) : Bytes := text.toUTF8.toList

end Intmax.Payout
