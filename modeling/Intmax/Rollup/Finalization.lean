import Intmax.Rollup.Intake

/-! # Posting, finalization and fraud proofs -/

namespace Intmax.Rollup

open Checked

variable [Keccak] {σ : Type}

/-! ## Posting a batch and submitting its proof commitment -/

def rollupLocalDevnetChainId : Nat := 31337

structure PostArgs where
  subBlocks : List SubBlock
  stateRoot : Bytes32
  expectedPendingChains : Bytes32
  deriving DecidableEq

/-- Record the submission under the next id; its bond index is set by the caller. -/
def submit (env : Env) (world : External) (kzgVerifier : Address)
    (stateRoot : Bytes32) (s : Chain) :
    Except Revert (Nat × Chain) := do
  let submissionId := s.nextSubmissionId
  let next ← add 256 Revert.panic submissionId 1
  let ethBlock := env.number % 2 ^ 40
  revertIf (kzgVerifier = 0) .callReverted
  let commitment ← getOrRevert (world.postCommitment stateRoot ethBlock submissionId)
    .callReverted
  let submission : Submission :=
    { commitment, submitter := env.sender, submittedAtBlock := ethBlock, stateRoot }
  pure (submissionId,
    { s with
      nextSubmissionId := next
      submissions := Function.update s.submissions submissionId submission })

def setBatchMetadata (submissionId : Nat) (m : BatchMetadata) (s : Chain) : Chain :=
  { s with batchMetadata := Function.update s.batchMetadata submissionId m }

def setPostIndex (submissionId postIndex : Nat) (s : Chain) : Chain :=
  { s with
    submissions := Function.update s.submissions submissionId
      { s.submissions submissionId with postIndex } }

def postBlockAndSubmitAt (cfg : Config) (sat : Satellite σ) (env : Env) (world : External)
    (args : PostArgs) (checkpoint : BatchCheckpoint) (s : Rollup) (j : σ) :
    Except Revert (Rollup × σ) := do
  revertIf (s.roles.isBlockProducer env.sender = false ∧
    env.sender ≠ s.roles.blockProducerAdmin) .notAuthorizedBlockProducer
  let (m, chain, j) ←
    postBlock sat s.roles.channelExitMaterializer args.subBlocks checkpoint s.chain j
  let (submissionId, chain) ← submit env world s.roles.kzgVerifier args.stateRoot chain
  let (postIndex, vault) ← chargeBond cfg env s.vault
  let chain := setPostIndex submissionId postIndex (setBatchMetadata submissionId m chain)
  pure ({ s with chain, vault }, j)

/-- The checkpoint under the producer's pin, unless unknown or behind the processed pair. -/
def postBlockAndSubmitPinned (cfg : Config) (sat : Satellite σ) (env : Env) (world : External)
    (args : PostArgs) (s : Rollup) (j : σ) : Except Revert (Rollup × σ) := do
  let checkpoint := s.intake.pendingChainsCheckpoints args.expectedPendingChains
  let processedPin := pendingChainsPin s.chain.depositHashChain s.chain.channelRegHashChain
  let processedCounts := (s.intake.pendingChainsCheckpoints processedPin).packedCounts
  revertIf (checkpoint.packedCounts = 0 ∨
      packedDepositCount checkpoint.packedCounts < packedDepositCount processedCounts ∨
      packedRegCount checkpoint.packedCounts < packedRegCount processedCounts)
    .pendingChainsMoved
  let batch : BatchCheckpoint :=
    { depositChain := checkpoint.depositHashChain
      registrationChain := checkpoint.channelRegHashChain
      depositCount := packedDepositCount checkpoint.packedCounts }
  postBlockAndSubmitAt cfg sat env world args batch s j

/-- The local-devnet endpoint. -/
def postBlockAndSubmit (cfg : Config) (sat : Satellite σ) (env : Env) (world : External)
    (args : PostArgs) (s : Rollup) (j : σ) : Except Revert (Rollup × σ) := do
  nonReentrant s
  revertIf (env.chainId ≠ rollupLocalDevnetChainId) .releaseRuntimeUnavailable
  postBlockAndSubmitPinned cfg sat env world args s j

def postBlockAndSubmitGuarded (cfg : Config) (sat : Satellite σ) (env : Env) (world : External)
    (args : PostArgs) (expectedBlockNumber : Nat) (expectedBlockHashChain : Bytes32)
    (s : Rollup) (j : σ) : Except Revert (Rollup × σ) := do
  requireReleaseRuntime cfg env
  nonReentrant s
  revertIf (s.chain.blockNumber ≠ expectedBlockNumber ∨
    s.chain.blockHashChain ≠ expectedBlockHashChain) .blockHeadMoved
  postBlockAndSubmitPinned cfg sat env world args s j

/-! ## Finalization -/

def finalizeDeadlineBlocks : Nat := 5 * 60 * 12
def minMleVerifyGas : Nat := 8000000

def mleInvalid : Nat := 0
def mleValid : Nat := 1
def mleUnevaluable : Nat := 2
def mleStarved : Nat := 3
def mlePiMismatch : Nat := 4

def fullVerify (world : External) (stateRoot : Bytes32) (pis : ValidityPublicInputs)
    (compactProof : Bytes) (s : Chain) : Except Revert Unit := do
  revertIf (pis.finalBlockNumber.toNat < s.latestFinalizedBlockNumber) .finalizedHeightRegression
  revertIf (pis.initialExtCommitment ≠ s.latestFinalizedStateRoot) .initialStateMismatch
  revertIf (pis.initialBlockChain ≠ s.blockHashChainAt pis.initialBlockNumber.toNat)
    .blockChainMismatch
  revertIf (pis.finalBlockChain ≠ s.blockHashChainAt pis.finalBlockNumber.toNat)
    .finalBlockChainMismatch
  revertIf (pis.finalExtCommitment ≠ stateRoot) .finalExtCommitmentMismatch
  let publicInputs ← getOrRevert (world.validityPublicInputs compactProof) .mleVerificationFailed
  revertIf (mlePublicInputsMatch publicInputs (computeValidityPIHash pis) = false)
    .validityPublicInputsMismatch

/-- The self-call of `finalize` to `fullVerify`: the error of a check, or no reason at
    all when the call ran out of gas. -/
def tryFullVerify (world : External) (stateRoot : Bytes32) (pis : ValidityPublicInputs)
    (compactProof : Bytes) (s : Chain) : Except (Option Revert) Unit :=
  if world.fullVerifyCompletes then
    match fullVerify world stateRoot pis compactProof s with
    | .ok () => .ok ()
    | .error e => .error (some e)
  else .error none

structure ProofArgs where
  submissionId : Nat
  stateRoot : Bytes32
  validityPIs : ValidityPublicInputs
  proofBytes : Bytes

/-- Every check of `finalize` after the entry guards; an error is a rejection. -/
def checkFinalize (world : External) (args : ProofArgs) (s : Chain) :
    Except (Option Revert) Unit := do
  let sub := s.submissions args.submissionId
  revertIf (sub.commitment = 0) (some .submissionNotFound)
  revertIf (sub.finalized = true) (some .alreadyFinalized)
  revertIf (args.stateRoot ≠ sub.stateRoot) (some .commitmentMismatch)
  revertIf (args.validityPIs.finalBlockNumber.toNat ≠
      (s.batchMetadata args.submissionId).endBlockNumber)
    (some .validityPublicInputsMismatch)
  revertIf (world.isProofDataAttested args.submissionId sub.commitment
      (keccak256 args.proofBytes) args.proofBytes.length = false) (some .commitmentMismatch)
  tryFullVerify world args.stateRoot args.validityPIs args.proofBytes s

/-- The blob satellite is consulted only once the four local checks pass. -/
def reachesAttestation (args : ProofArgs) (s : Chain) : Bool :=
  let sub := s.submissions args.submissionId
  sub.commitment != 0 && !sub.finalized && args.stateRoot == sub.stateRoot &&
    args.validityPIs.finalBlockNumber.toNat == (s.batchMetadata args.submissionId).endBlockNumber

def markFinalized (args : ProofArgs) (s : Chain) : Chain :=
  { s with
    submissions := Function.update s.submissions args.submissionId
      { s.submissions args.submissionId with finalized := true }
    latestFinalizedStateRoot := args.stateRoot
    isFinalizedStateRoot := Function.update s.isFinalizedStateRoot args.stateRoot true
    latestFinalizedBlockNumber := args.validityPIs.finalBlockNumber.toNat }

def finalize (env : Env) (world : External) (args : ProofArgs) (s : Rollup) :
    Except Revert (Outcome × Rollup) := do
  nonPayable env
  nonReentrant s
  revertIf (reachesAttestation args s.chain = true ∧ s.roles.kzgVerifier = 0) .callReverted
  match checkFinalize world args s.chain with
  | .error reason => pure (.rejected reason, s)
  | .ok () =>
    let sub := s.chain.submissions args.submissionId
    pure (.returned true,
      { s with
        chain := markFinalized args s.chain
        vault := raiseReleased sub.submitter sub.postIndex s.vault })

/-! ## Fraud proofs -/

/-- Classify the committed bytes, keeping gas starvation apart from every verdict. -/
def encodedMleVerdict (world : External) (proofBytes : Bytes) (piHash : Bytes32) : Nat :=
  if world.gasleft 0 < minMleVerifyGas then mleStarved
  else
    let reserve := world.gasleft 1 / 64
    let budget := world.gasleft 2 - reserve
    match world.fraudVerdictCompact proofBytes piHash budget with
    | some verdict => verdict
    | none => if world.gasleft 3 < reserve + budget / 8 then mleStarved else mleUnevaluable

def fraudPreconditions (world : External) (args : ProofArgs) (s : Chain) : Bool :=
  let pis := args.validityPIs
  world.isProofDataAttested args.submissionId (s.submissions args.submissionId).commitment
      (keccak256 args.proofBytes) args.proofBytes.length &&
    pis.initialExtCommitment == s.latestFinalizedStateRoot &&
    pis.initialBlockChain == s.blockHashChainAt pis.initialBlockNumber.toNat &&
    pis.finalBlockChain == s.blockHashChainAt pis.finalBlockNumber.toNat &&
    pis.finalExtCommitment == args.stateRoot

def verifyFraud (world : External) (args : ProofArgs) (s : Rollup) : Except Revert Bool := do
  revertIf (s.roles.kzgVerifier = 0) .callReverted
  if fraudPreconditions world args s.chain then
    let verdict :=
      encodedMleVerdict world args.proofBytes (computeValidityPIHash args.validityPIs)
    if verdict = mlePiMismatch then pure false
    else
      revertIf (verdict = mleStarved) .fraudProofGasStarved
      revertIf (mleValid < verdict) .mleProofUnevaluable
      pure (verdict == mleInvalid)
  else pure false

def fraudProof (cfg : Config) (sat : Satellite σ) (env : Env) (world : External) (args : ProofArgs)
    (s : Rollup) (j : σ) : Except Revert (Outcome × Rollup × σ) := do
  nonPayable env
  nonReentrant s
  let sub := s.chain.submissions args.submissionId
  if sub.commitment = 0 then pure (.returned false, s, j)
  else
    revertIf (sub.finalized = true) .submissionAlreadyFinalized
    revertIf ((s.chain.batchMetadata args.submissionId).startBlockNumber ≤
      s.chain.latestFinalizedBlockNumber) .submissionBeforeFinalizedBlock
    let timedOut := decide (sub.submittedAtBlock + finalizeDeadlineBlocks < env.number)
    let confirmed ←
      if timedOut = false ∨ args.proofBytes ≠ [] then verifyFraud world args s else pure false
    if confirmed = false ∧ timedOut = false then pure (.returned false, s, j)
    else
      let (s, j) ← truncateSubmissions cfg sat args.submissionId env.sender confirmed s j
      pure (.returned true, s, j)

/-! ## Releasing bonds -/

def releaseBond (env : Env) (producer : Address) (submissionId : Nat) (s : Rollup) :
    Except Revert Rollup := do
  nonPayable env
  let sub := s.chain.submissions submissionId
  revertIf (producer = 0 ∨ sub.submitter ≠ producer ∨
      s.chain.latestFinalizedBlockNumber < (s.chain.batchMetadata submissionId).endBlockNumber)
    .submissionNotYetFinalized
  pure { s with vault := raiseReleased producer sub.postIndex s.vault }

end Intmax.Rollup
