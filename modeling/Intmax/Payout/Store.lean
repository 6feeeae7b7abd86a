import Intmax.Lib.Path
import Intmax.Payout.Records

/-! # The payout store

What a request has to say before it becomes a candidate, what a receipt has to say before it
confirms a call, and what a snapshot has to satisfy before it is written or used; then the journal
file, the store of a running process, and the operations of `PartialWithdrawalPayoutStore`.  Each
operation first makes the snapshot that it wants on disk, then `commit` checks it and replaces the
file.  A replacement that fails has or has not taken place; the store answers nothing more until it
is opened again.
-/

namespace Intmax.Payout

open Checked
open Rollup (Withdrawal)

section
variable [Serde]

def partialWithdrawalPayoutVersion : Nat := 4

def maxReplacementTxHashes : Nat := 16

def laneFor (withdrawal : Withdrawal) : PartialWithdrawalLane :=
  if withdrawal.tokenIndex = 0 then .native else .erc20

/-! ## Requests -/

def validatePayoutJson (artifacts : PartialWithdrawalProofArtifacts) : PResult Unit := do
  let payout ← (Serde.parsePayout artifacts.payoutJson).mapError fun e =>
    .invalidRequest s!"invalid payout JSON: {e}"
  let encoded ← (match payout.withdrawals with
    | [encoded] => pure encoded
    | _ => .error (.invalidRequest
      "partial-withdrawal payout must contain exactly one proof-committed leaf") :
    PResult PayoutJsonWithdrawal)
  let proved := artifacts.withdrawal
  revertIf (encoded.recipient ≠ proved.recipient ∨ encoded.tokenIndex ≠ proved.tokenIndex ∨
      encoded.amount ≠ proved.amount.toNat ∨ encoded.nullifier ≠ proved.nullifier ∨
      encoded.auxData ≠ proved.auxData ∨
      payout.withdrawalProver ≠ artifacts.withdrawalProver ∨
      payout.blockNumber ≠ artifacts.producerAnchor.blockNumber ∨
      payout.extCommitment ≠ artifacts.producerAnchor.extendedStateCommitment)
    (.invalidRequest "payout JSON differs from proof public inputs or producer anchor")

def validatePrepare (request : PreparePartialWithdrawalPayout) : PResult Unit := do
  let artifacts := request.artifacts
  let withdrawal := artifacts.withdrawal
  let anchor := artifacts.producerAnchor
  revertIf (request.chainId = 0 ∨ request.rollup = 0)
    (.invalidRequest "chain id and rollup must be non-zero")
  revertIf (withdrawal.recipient = 0 ∨ withdrawal.amount = 0 ∨ withdrawal.auxData = 0 ∨
      artifacts.withdrawalProver = 0) (.invalidRequest
    "a partial-withdrawal proof must commit a non-zero recipient, amount and auxData")
  revertIf (request.signedHeadDigest = 0 ∨ isBlank request.producerReceipt.requestId = true ∨
      request.producerReceipt.entryHash = 0 ∨
      request.producerReceipt.extendedStateCommitment = 0 ∨ anchor.entryHash = 0 ∨
      anchor.extendedStateCommitment = 0) (.invalidRequest
    "signed head, exact producer receipt and proof anchor must all be non-zero")
  revertIf (anchor.generation < request.producerReceipt.generation ∨
      anchor.blockNumber < request.producerReceipt.blockNumber)
    (.invalidRequest "withdrawal proof anchor predates its burn producer receipt")
  validatePayoutJson artifacts
  let object ← (Serde.isObject artifacts.withdrawalMleJson).mapError fun e =>
    .invalidRequest s!"invalid MLE JSON: {e}"
  revertIf (object = false ∨ artifacts.withdrawalMleJson.isEmpty = true)
    (.invalidRequest "withdrawal MLE artefact is empty or not an object")
  revertIf (artifacts.metrics.mleJsonBytes ≠ artifacts.withdrawalMleJson.utf8ByteSize)
    (.invalidRequest "reported MLE byte size differs from the exact artefact")
  revertIf (artifacts.metrics.singleWithdrawalProofBytes = 0 ∨
      artifacts.metrics.withdrawalChainProofBytes = 0 ∨
      artifacts.metrics.withdrawalFinalProofBytes = 0)
    (.invalidRequest "live prover reported an empty withdrawal proof stage")

def PreparePartialWithdrawalPayout.identity [Keccak] (request : PreparePartialWithdrawalPayout) :
    CandidateIdentity :=
  { chainId := request.chainId
    rollup := request.rollup
    channelId := request.channelId
    signedHeadDigest := request.signedHeadDigest
    burnBaseNonce := request.burnBaseNonce
    producerReceipt := request.producerReceipt
    withdrawal := request.artifacts.withdrawal
    withdrawalProver := request.artifacts.withdrawalProver
    producerAnchor := request.artifacts.producerAnchor
    payoutJsonDigest := keccak256 (asBytes request.artifacts.payoutJson)
    mleJsonDigest := keccak256 (asBytes request.artifacts.withdrawalMleJson) }

/-- `candidate_id`. -/
def computeCandidateId [Keccak] (request : PreparePartialWithdrawalPayout) : PResult Bytes32 := do
  let bytes ← (Serde.identityToVec request.identity).mapError fun e =>
    .invalidRequest s!"serialize candidate identity: {e}"
  pure (keccak256 bytes)

/-! ## Receipts -/

def expectedPayoutKind : PartialWithdrawalLane → L1CallKind
  | .native => .withdrawNative
  | .erc20 => .withdrawErc20

def expectedPullKind : PartialWithdrawalLane → L1CallKind
  | .native => .pullNative
  | .erc20 => .pullErc20

def validatePayoutConfirmation (candidate : PartialWithdrawalCandidate)
    (confirmation : PayoutConfirmation) : PResult Unit := do
  let receipt := confirmation.receipt
  let intent ← getOrRevert candidate.payoutBroadcast
    (.invalidRequest "persist a payout broadcast intent before accepting its receipt")
  revertIf (confirmation.creditBefore ≠ intent.creditBefore)
    (.invalidRequest "payout confirmation substituted a different pre-broadcast credit")
  (receipt.finalizedCheckpoint.coversReceipt receipt.blockNumber receipt.blockHash).mapError
    fun error => .invalidRequest
      s!"payout receipt is not covered by a durable L1 checkpoint: {error}"
  revertIf (receipt.txHash = 0 ∨ receipt.blockHash = 0 ∨ receipt.success = false ∨
      receipt.chainId ≠ candidate.chainId ∨
      receipt.finalizedCheckpoint.chainId ≠ candidate.chainId ∨
      receipt.sender ≠ intent.caller ∨ receipt.target ≠ candidate.rollup ∨
      receipt.blockNumber < intent.startBlock ∨
      receipt.transactionNonce ≠ intent.callerNonce ∨
      receipt.calldataHash ≠ intent.calldataHash ∨
      receipt.callKind ≠ expectedPayoutKind candidate.lane)
    (.invalidRequest "payout receipt failed or targets the wrong chain/rollup/function")
  revertIf (confirmation.finalizedAnchorObserved = false ∨
      confirmation.nullifierUsedObserved = false) (.invalidRequest
    "successful payout must be anchored at a finalized root and consume the nullifier")
  revertIf (confirmation.creditAfter < confirmation.creditBefore ∨
      confirmation.creditAfter - confirmation.creditBefore ≠
        candidate.artifacts.withdrawal.amount.toNat) (.invalidRequest
    "on-chain recipient credit did not increase by the proof-committed amount")

def validatePullConfirmation (candidate : PartialWithdrawalCandidate)
    (confirmation : PullConfirmation) : PResult Unit := do
  let withdrawal := candidate.artifacts.withdrawal
  let _payout ← getOrRevert candidate.payoutConfirmation
    (.invalidRequest "proof payout must precede pull confirmation")
  let intent ← getOrRevert candidate.pullBroadcast
    (.invalidRequest "pull broadcast must precede pull confirmation")
  revertIf (intent.caller ≠ withdrawal.recipient ∨
      confirmation.creditBefore ≠ intent.creditBefore ∨
      intent.creditBefore < withdrawal.amount.toNat) (.invalidRequest
    "recipient or pre-broadcast credit changed across the durable pull boundary")
  let receipt := confirmation.receipt
  (receipt.finalizedCheckpoint.coversReceipt receipt.blockNumber receipt.blockHash).mapError
    fun error => .invalidRequest
      s!"pull receipt is not covered by a durable L1 checkpoint: {error}"
  revertIf (receipt.txHash = 0 ∨ receipt.blockHash = 0 ∨ receipt.success = false ∨
      receipt.chainId ≠ candidate.chainId ∨
      receipt.finalizedCheckpoint.chainId ≠ candidate.chainId ∨
      receipt.target ≠ candidate.rollup ∨ receipt.sender ≠ withdrawal.recipient ∨
      receipt.sender ≠ intent.caller ∨ receipt.blockNumber < intent.startBlock ∨
      receipt.transactionNonce ≠ intent.callerNonce ∨
      receipt.calldataHash ≠ intent.calldataHash ∨
      receipt.callKind ≠ expectedPullKind candidate.lane)
    (.invalidRequest "pull receipt failed or targets the wrong chain/rollup/caller/function")
  revertIf (confirmation.creditBefore < withdrawal.amount.toNat)
    (.invalidRequest "recipient pull began without enough on-chain credit")

/-! ## Snapshots -/

def verifyTxHashes (hashes : List Bytes32) (hasIntent : Bool) (phase : String) : PResult Unit := do
  revertIf (hashes ≠ [] ∧ hasIntent = false)
    (.snapshot s!"snapshot records a {phase} transaction without its broadcast intent")
  revertIf (maxReplacementTxHashes < hashes.length)
    (.snapshot s!"snapshot contains too many {phase} replacement transactions")
  revertIf (0 ∈ hashes ∨ ¬hashes.Nodup)
    (.snapshot s!"snapshot contains a zero or duplicate {phase} transaction hash")

/-- The checks of `verify_disk` that the stored record is the one its request gives. -/
def verifyIdentity [Keccak] (active : PartialWithdrawalCandidate) : PResult Unit := do
  let request := active.toPreparePartialWithdrawalPayout
  (validatePrepare request).mapError fun e =>
    .snapshot s!"active candidate no longer validates: {e.toText}"
  let expectedId ← (computeCandidateId request).mapError fun e =>
    .snapshot s!"active candidate identity cannot be recomputed: {e.toText}"
  revertIf (active.candidateId ≠ expectedId ∨
    active.lane ≠ laneFor active.artifacts.withdrawal)
    (.snapshot "active candidate id or asset lane differs from its proof artefacts")

/-- Its checks of the order of the phases. -/
def verifyPhases (active : PartialWithdrawalCandidate) : PResult Unit := do
  revertIf (active.payoutConfirmation.isSome = true ∧ active.payoutBroadcast = none)
    (.snapshot "snapshot confirms a proof payout without its broadcast intent")
  verifyTxHashes active.payoutTxHashes active.payoutBroadcast.isSome "payout"
  revertIf (active.payoutBroadcast.any (fun intent =>
      intent.caller == 0 || intent.calldataHash == 0) = true)
        (.snapshot "snapshot contains a zero payout caller")
  revertIf (active.pullBroadcast.isSome = true ∧ active.payoutConfirmation = none)
    (.snapshot "snapshot begins a recipient pull before confirming its proof payout")
  revertIf (active.recipientPullDelegated = true ∧ (active.payoutConfirmation = none ∨
      active.pullBroadcast.isSome = true ∨ active.pullConfirmation.isSome = true)) (.snapshot
    "external recipient handoff lacks payout confirmation or overlaps a local pull")
  revertIf (active.pullConfirmation.isSome = true ∧ active.pullBroadcast = none)
    (.snapshot "snapshot confirms a recipient pull without its broadcast intent")
  verifyTxHashes active.pullTxHashes active.pullBroadcast.isSome "pull"

/-- Its check of a stored pull intent. -/
def verifyPullIntent (active : PartialWithdrawalCandidate) : PResult Unit :=
  match active.pullBroadcast with
  | none => pure ()
  | some intent => do
    let _payout ← getOrRevert active.payoutConfirmation
      (.snapshot "snapshot begins a pull without a payout confirmation")
    revertIf (intent.caller ≠ active.artifacts.withdrawal.recipient ∨
        intent.calldataHash = 0 ∨ intent.creditBefore < active.artifacts.withdrawal.amount.toNat)
      (.snapshot "stored pull intent substituted its recipient or lacked sufficient credit")

/-- Its checks of the stored confirmations. -/
def verifyConfirmations (active : PartialWithdrawalCandidate) : PResult Unit := do
  (match active.payoutConfirmation with
    | none => pure ()
    | some confirmation => do
      revertIf (confirmation.receipt.txHash ∉ active.payoutTxHashes) (.snapshot
        "payout confirmation receipt is absent from its transaction-hash journal")
      (validatePayoutConfirmation active confirmation).mapError fun e =>
        .snapshot s!"stored payout confirmation is invalid: {e.toText}" : PResult Unit)
  (match active.pullConfirmation with
    | none => pure ()
    | some confirmation => do
      revertIf (confirmation.receipt.txHash ∉ active.pullTxHashes) (.snapshot
        "pull confirmation receipt is absent from its transaction-hash journal")
      (validatePullConfirmation active confirmation).mapError fun e =>
        .snapshot s!"stored pull confirmation is invalid: {e.toText}" : PResult Unit)

/-- The part of `verify_disk` about the active candidate. -/
def verifyActive [Keccak] (completedNullifiers : List Bytes32)
    (active : PartialWithdrawalCandidate) : PResult Unit := do
  verifyIdentity active
  verifyPhases active
  verifyPullIntent active
  verifyConfirmations active
  revertIf (active.isComplete = true ∧ active.nullifier ∉ completedNullifiers)
    (.snapshot "complete active payout is absent from the completed-nullifier ledger")
  revertIf (active.pullConfirmation.isSome = true ∧ active.payoutConfirmation = none)
    (.snapshot "snapshot confirms a pull without a proof payout")

def verifyDisk [Keccak] (disk : PayoutSnapshot) : PResult Unit := do
  revertIf (disk.version ≠ partialWithdrawalPayoutVersion)
    (.snapshot s!"unsupported version {disk.version}")
  revertIf (¬disk.completedNullifiers.Nodup)
    (.snapshot "completed nullifier ledger contains a duplicate")
  match disk.active with
  | none => pure ()
  | some active => verifyActive disk.completedNullifiers active

/-! ## Resuming -/

structure PartialWithdrawalOnchainState where
  nullifierUsed : Bool

inductive PartialWithdrawalResumeAction
  | broadcastPayout
  | reconcilePayout
  | continueAfterPayout
  deriving DecidableEq

def partialWithdrawalResumeAction (candidate : PartialWithdrawalCandidate)
    (state : PartialWithdrawalOnchainState) : PResult PartialWithdrawalResumeAction :=
  if candidate.payoutConfirmation.isSome then do
    revertIf (state.nullifierUsed = false)
      (.conflict "stored payout confirmation disagrees with an unused withdrawal nullifier")
    pure .continueAfterPayout
  else if candidate.payoutBroadcast.isSome then pure .reconcilePayout
  else do
    revertIf (state.nullifierUsed = true)
      (.conflict "withdrawal nullifier is used but no durable payout broadcast intent exists")
    pure .broadcastPayout

omit [Serde] in
theorem partialWithdrawalResumeAction_broadcast {candidate : PartialWithdrawalCandidate}
    {state : PartialWithdrawalOnchainState}
    (answered : partialWithdrawalResumeAction candidate state = .ok .broadcastPayout) :
    candidate.payoutBroadcast = none := by
  unfold partialWithdrawalResumeAction at answered
  split at answered
  · simp at answered
  · split at answered
    · simp at answered
    case isFalse absent => simpa using absent

end

variable [Keccak] [Serde]

/-! ## The file -/

def snapshotMagic : Bytes := asBytes "INTMAX_PAYOUT_04"

def snapshotMagicFamily : Bytes := asBytes "INTMAX_PAYOUT_"

def headerBytes : Nat := 16 + 4 + 8 + 32

def maxSnapshotBytes : Nat := 512 * 1024 * 1024

/-- `to_le_bytes` of an integer of `n` bytes. -/
def toLeBytes (n value : Nat) : Bytes := (BigEndian.encode n value).reverse

def fromLeBytes (bytes : Bytes) : Nat := BigEndian.decode bytes.reverse

def retiredFlowSnapshotMessage (path : String) (version : Nat) : String :=
  s!"{path} is a version-{version} payout journal written by the retired settlement-manager " ++
  "partial-withdrawal flow (pw-submit / finalizePartialWithdrawal / IPW2 authorization); " ++
  s!"this build (version {partialWithdrawalPayoutVersion}) pays a burn with its withdrawal " ++
  "proof alone and refuses to reinterpret that journal. Reconcile its L1 state by hand " ++
  "(withdrawalNullifierUsed for its nullifier, the recipient's pending credit), then move " ++
  "the file aside before re-running pw-finalize"

/-- The bytes that `persist_snapshot` writes. -/
def encodeSnapshot (disk : PayoutSnapshot) : PResult Bytes := do
  let payload ← (Serde.snapshotToVec disk).mapError fun e =>
    .snapshot s!"encode payout snapshot: {e}"
  revertIf (maxSnapshotBytes < payload.length + headerBytes)
    (.snapshot "payout snapshot exceeds maximum size")
  pure (snapshotMagic ++ (toLeBytes 4 partialWithdrawalPayoutVersion ++
    (toLeBytes 8 payload.length ++ (BigEndian.ofBitVec 32 (keccak256 payload) ++ payload))))

/-- `read_snapshot`, once the file has been read. -/
def readSnapshot (path : String) (bytes : Bytes) : PResult PayoutSnapshot := do
  revertIf (bytes.length < headerBytes ∨ maxSnapshotBytes < bytes.length) (.snapshot
    s!"snapshot size {bytes.length} is outside {headerBytes}..={maxSnapshotBytes}")
  let version := fromLeBytes ((bytes.drop 16).take 4)
  if bytes.take 16 ≠ snapshotMagic then
    if bytes.take 14 = snapshotMagicFamily ∧ version < partialWithdrawalPayoutVersion then
      .error (.snapshot (retiredFlowSnapshotMessage path version))
    else .error (.snapshot "bad snapshot magic")
  else do
    revertIf (version ≠ partialWithdrawalPayoutVersion)
      (.snapshot s!"unsupported snapshot version {version}")
    let payloadLen := fromLeBytes ((bytes.drop 20).take 8)
    revertIf (payloadLen ≠ bytes.length - headerBytes)
      (.snapshot "snapshot payload length mismatch")
    let payload := bytes.drop headerBytes
    revertIf (BigEndian.ofBitVec 32 (keccak256 payload) ≠ (bytes.drop 28).take 32)
      (.snapshot "snapshot checksum mismatch")
    (Serde.snapshotFromSlice payload).mapError fun e =>
      .snapshot s!"decode snapshot payload: {e}"

/-- What the file system makes of a replacement of the file. -/
inductive Replacement
  | done
  /-- An error is returned; `replaced` says whether the new content is already in place. -/
  | failed (error : String) (replaced : Bool)
  deriving DecidableEq

/-- `persist_snapshot`: its result and the content of the file afterwards. -/
def persistSnapshot (io : Replacement) (disk : PayoutSnapshot) (file : Option Bytes) :
    PResult Unit × Option Bytes :=
  match encodeSnapshot disk with
  | .error e => (.error e, file)
  | .ok bytes =>
    match io with
    | .done => (.ok (), some bytes)
    | .failed error replaced => (.error (.snapshot error), if replaced then some bytes else file)

/-! ## The store -/

structure PartialWithdrawalPayoutStore where
  disk : PayoutSnapshot
  poisoned : Bool

def PartialWithdrawalPayoutStore.ensureHealthy (store : PartialWithdrawalPayoutStore) :
    PResult Unit :=
  revertIf (store.poisoned = true) .poisoned

def PartialWithdrawalPayoutStore.getActive (store : PartialWithdrawalPayoutStore) :
    PResult (Option PartialWithdrawalCandidate) := do
  store.ensureHealthy
  pure store.disk.active

/-- The journal file and the store of the process that holds its lock, if one does. -/
structure Journal where
  file : Option Bytes
  store : Option PartialWithdrawalPayoutStore

def emptySnapshot : PayoutSnapshot :=
  { version := partialWithdrawalPayoutVersion, active := none, completedNullifiers := [] }

/-- Read the file and check it. -/
def loadSnapshot (path : String) (bytes : Bytes) : PResult PayoutSnapshot := do
  let disk ← readSnapshot path bytes
  verifyDisk disk
  pure disk

/-- `open`, in a process that took the lock over from whoever had it. -/
def Journal.openStore (path : String) (io : Replacement) (j : Journal) : PResult Unit × Journal :=
  match j.file with
  | some bytes =>
    match loadSnapshot path bytes with
    | .error e => (.error e, { j with store := none })
    | .ok disk => (.ok (), { j with store := some { disk, poisoned := false } })
  | none =>
    match persistSnapshot io emptySnapshot none with
    | (.error e, file) => (.error e, { file, store := none })
    | (.ok (), file) =>
      match verifyDisk emptySnapshot with
      | .error e => (.error e, { file, store := none })
      | .ok () => (.ok (), { file, store := some { disk := emptySnapshot, poisoned := false } })

/-- `commit`. -/
def commit (io : Replacement) (disk : PayoutSnapshot) (store : PartialWithdrawalPayoutStore)
    (file : Option Bytes) : PResult Unit × Journal :=
  match verifyDisk disk with
  | .error e => (.error e, { file, store := some store })
  | .ok () =>
    match persistSnapshot io disk file with
    | (.error e, file) => (.error e, { file, store := some { store with poisoned := true } })
    | (.ok (), file) => (.ok (), { file, store := some { store with disk } })

/-! ## Operations -/

def pushTxHash (hashes : List Bytes32) (txHash : Bytes32) : PResult (List Bytes32) := do
  revertIf (txHash = 0) (.invalidRequest "transaction hash must be non-zero")
  if txHash ∈ hashes then pure hashes
  else do
    revertIf (maxReplacementTxHashes ≤ hashes.length)
      (.conflict "too many replacement transaction hashes for one broadcast intent")
    pure (hashes ++ [txHash])

/-- What an operation wants: an answer without a write, or a new snapshot and the answer to give
    once it is on disk. -/
inductive Wanted
  | answer (candidate : PartialWithdrawalCandidate)
  | write (disk : PayoutSnapshot) (candidate : PartialWithdrawalCandidate)

/-- `prepare` up to its commit. -/
def wantPrepare (request : PreparePartialWithdrawalPayout) (disk : PayoutSnapshot) :
    PResult Wanted := do
  validatePrepare request
  let candidateId ← computeCandidateId request
  let fresh : PResult Wanted := do
    revertIf (request.nullifier ∈ disk.completedNullifiers) (.conflict
      s!"withdrawal nullifier {request.nullifier.toHex} already completed in this journal")
    let candidate : PartialWithdrawalCandidate :=
      { request with candidateId, lane := laneFor request.artifacts.withdrawal }
    pure (.write { disk with active := some candidate } candidate)
  match disk.active with
  | none => fresh
  | some active =>
    if active.candidateId = candidateId then pure (.answer active)
    else do
      revertIf (active.isComplete = false) (.conflict
        (s!"candidate {active.candidateId.toHex} is still in flight; refusing replacement with " ++
          s!"{candidateId.toHex}"))
      fresh

/-- `mutate_candidate` up to its commit. -/
def wantMutation (candidateId : Bytes32)
    (update : PartialWithdrawalCandidate → PResult PartialWithdrawalCandidate)
    (disk : PayoutSnapshot) : PResult Wanted := do
  let candidate ← getOrRevert disk.active (.invalidRequest "no prepared payout candidate")
  revertIf (candidate.candidateId ≠ candidateId) (.conflict
    s!"candidate id {candidateId.toHex} does not match active {candidate.candidateId.toHex}")
  let result ← update candidate
  let completedNullifiers :=
    if result.isComplete = true ∧ result.nullifier ∉ disk.completedNullifiers then
      disk.completedNullifiers ++ [result.nullifier]
    else disk.completedNullifiers
  pure (.write { disk with active := some result, completedNullifiers } result)

/-- Keep the value that is there, refuse another one, store the first. -/
def recordOnce {α : Type} [DecidableEq α] (existing : Option α) (value : α) (refusal : String) :
    PResult (Option α) := do
  revertIf (existing.any (· ≠ value) = true) (.conflict refusal)
  pure (some value)

def markPayoutBroadcast (intent : BroadcastIntent) (candidate : PartialWithdrawalCandidate) :
    PResult PartialWithdrawalCandidate :=
  if candidate.payoutConfirmation.isSome then pure candidate
  else do
    revertIf (intent.caller = 0 ∨ intent.calldataHash = 0)
      (.invalidRequest "payout broadcast caller must be non-zero")
    let payoutBroadcast ← recordOnce candidate.payoutBroadcast intent
      "payout broadcast already began with a different caller/block/nonce"
    pure { candidate with payoutBroadcast }

def confirmPayout (confirmation : PayoutConfirmation) (candidate : PartialWithdrawalCandidate) :
    PResult PartialWithdrawalCandidate := do
  validatePayoutConfirmation candidate confirmation
  match candidate.payoutConfirmation with
  | some existing => do
    revertIf (existing ≠ confirmation)
      (.conflict "payout was already confirmed by a different receipt")
    pure candidate
  | none => do
    let payoutTxHashes ← pushTxHash candidate.payoutTxHashes confirmation.receipt.txHash
    pure { candidate with payoutTxHashes, payoutConfirmation := some confirmation }

def recordPayoutTxHash (txHash : Bytes32) (candidate : PartialWithdrawalCandidate) :
    PResult PartialWithdrawalCandidate := do
  revertIf (candidate.payoutBroadcast = none)
    (.invalidRequest "cannot record a payout transaction before its broadcast intent")
  match candidate.payoutConfirmation with
  | some confirmation => do
    revertIf (confirmation.receipt.txHash ≠ txHash)
      (.conflict "cannot append a replacement hash after payout confirmation")
    pure candidate
  | none => do
    let payoutTxHashes ← pushTxHash candidate.payoutTxHashes txHash
    pure { candidate with payoutTxHashes }

def markRecipientPullDelegated (candidate : PartialWithdrawalCandidate) :
    PResult PartialWithdrawalCandidate := do
  revertIf (candidate.payoutConfirmation = none)
    (.invalidRequest "cannot hand off the recipient pull before payout confirmation")
  revertIf (candidate.pullBroadcast.isSome = true ∨ candidate.pullConfirmation.isSome = true)
    (.conflict "cannot hand off a recipient pull that already began locally")
  pure { candidate with recipientPullDelegated := true }

def markPullBroadcast (intent : BroadcastIntent) (candidate : PartialWithdrawalCandidate) :
    PResult PartialWithdrawalCandidate := do
  revertIf (candidate.recipientPullDelegated = true)
    (.conflict "recipient pull was delegated to the external proved recipient")
  let _payout ← getOrRevert candidate.payoutConfirmation
    (.invalidRequest "cannot pull before the proof payout has a successful receipt")
  if candidate.pullConfirmation.isSome then pure candidate
  else do
    revertIf (intent.caller ≠ candidate.artifacts.withdrawal.recipient ∨
        intent.creditBefore < candidate.artifacts.withdrawal.amount.toNat)
      (.invalidRequest "pull intent must pin the proved recipient and observe enough credit")
    let pullBroadcast ← recordOnce candidate.pullBroadcast intent
      "recipient pull already began with a different caller/block/nonce"
    pure { candidate with pullBroadcast }

def confirmPull (confirmation : PullConfirmation) (candidate : PartialWithdrawalCandidate) :
    PResult PartialWithdrawalCandidate := do
  validatePullConfirmation candidate confirmation
  match candidate.pullConfirmation with
  | some existing => do
    revertIf (existing ≠ confirmation)
      (.conflict "recipient pull was already confirmed by a different receipt")
    pure candidate
  | none => do
    let pullTxHashes ← pushTxHash candidate.pullTxHashes confirmation.receipt.txHash
    pure { candidate with pullTxHashes, pullConfirmation := some confirmation }

def recordPullTxHash (txHash : Bytes32) (candidate : PartialWithdrawalCandidate) :
    PResult PartialWithdrawalCandidate := do
  revertIf (candidate.pullBroadcast = none)
    (.invalidRequest "cannot record a pull transaction before its broadcast intent")
  match candidate.pullConfirmation with
  | some confirmation => do
    revertIf (confirmation.receipt.txHash ≠ txHash)
      (.conflict "cannot append a replacement hash after pull confirmation")
    pure candidate
  | none => do
    let pullTxHashes ← pushTxHash candidate.pullTxHashes txHash
    pure { candidate with pullTxHashes }

inductive Operation
  | prepare (request : PreparePartialWithdrawalPayout)
  | markPayoutBroadcast (candidateId : Bytes32) (intent : BroadcastIntent)
  | confirmPayout (candidateId : Bytes32) (confirmation : PayoutConfirmation)
  | recordPayoutTxHash (candidateId txHash : Bytes32)
  | markRecipientPullDelegated (candidateId : Bytes32)
  | markPullBroadcast (candidateId : Bytes32) (intent : BroadcastIntent)
  | confirmPull (candidateId : Bytes32) (confirmation : PullConfirmation)
  | recordPullTxHash (candidateId txHash : Bytes32)

/-- The operation up to its commit. -/
def Operation.want : Operation → PayoutSnapshot → PResult Wanted
  | prepare request => wantPrepare request
  | markPayoutBroadcast id intent => wantMutation id (Payout.markPayoutBroadcast intent)
  | confirmPayout id confirmation => wantMutation id (Payout.confirmPayout confirmation)
  | recordPayoutTxHash id txHash => wantMutation id (Payout.recordPayoutTxHash txHash)
  | markRecipientPullDelegated id => wantMutation id Payout.markRecipientPullDelegated
  | markPullBroadcast id intent => wantMutation id (Payout.markPullBroadcast intent)
  | confirmPull id confirmation => wantMutation id (Payout.confirmPull confirmation)
  | recordPullTxHash id txHash => wantMutation id (Payout.recordPullTxHash txHash)

/-- Run an operation on the open store. -/
def Operation.run (op : Operation) (io : Replacement) (store : PartialWithdrawalPayoutStore)
    (file : Option Bytes) : PResult PartialWithdrawalCandidate × Journal :=
  match (do store.ensureHealthy; op.want store.disk : PResult Wanted) with
  | .error e => (.error e, { file, store := some store })
  | .ok (.answer candidate) => (.ok candidate, { file, store := some store })
  | .ok (.write disk candidate) =>
    let committed := commit io disk store file
    (committed.1.map fun _ => candidate, committed.2)

/-! ## Runs -/

/-- An operation, or the journal opened again, with what the file system does meanwhile. -/
inductive Act
  | operation (op : Operation) (io : Replacement)
  | reopen (io : Replacement)

/-- One call.  Nothing can be asked of a store that is not open. -/
inductive Step (path : String) : Journal → Act → Journal → Prop
  | operation {op : Operation} {io : Replacement} {store : PartialWithdrawalPayoutStore}
      {file : Option Bytes} :
      Step path { file, store := some store } (.operation op io) (op.run io store file).2
  | reopen {io : Replacement} {j : Journal} : Step path j (.reopen io) (j.openStore path io).2

/-- Before the journal was opened first. -/
def noJournal : Journal := { file := none, store := none }

abbrev Run (path : String) (acts : List Act) (j : Journal) : Prop :=
  Transition.Path (Step path) noJournal acts j

end Intmax.Payout
