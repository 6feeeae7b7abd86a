import Intmax.Settlement.State

/-! # The close lifecycle of `ChannelSettlementManager`

Request, submit or replace an intent, cancel, finalize.  The satellite is a
parameter, as it is for the rollup: a request and a cancel change its state, and
a submission asks it whether the signed head is backed.
-/

namespace Intmax.Settlement

open Checked

variable [Keccak] {ε : Type}

def gracePeriodSecs : Nat := 600
def challengePeriodSecs : Nat := 86400
def minCloseResponseSecs : Nat := 3600
def localDevnetChainId : Nat := 31337
def maxChannelTokens : Nat := 10
def participantTreeDepth : Nat := 10

/-! ## Modifiers -/

def requireReleaseRuntime (cfg : Config) (env : Env) : Except Revert Unit :=
  revertIf (env.chainId ≠ localDevnetChainId ∧ cfg.challengePeriod < challengePeriodSecs)
    (.challengePeriodTooShort cfg.challengePeriod challengePeriodSecs)

def nonReentrant (s : Manager) : Except Revert Unit :=
  revertIf (s.status.isSome = true) .reentrant

/-- The environment of a call the manager makes. -/
def Config.calling (cfg : Config) (env : Env) : Env := { env with sender := cfg.self, value := 0 }

/-! ## Participants -/

def Config.isMemberRecipient (cfg : Config) (account : Address) : Bool :=
  cfg.memberBindings.any fun binding => binding.recipient == account

def Config.activeMemberCount (cfg : Config) : Nat := cfg.memberBindings.length

/-- The eight member slots, padded with zero keys. -/
def Config.memberPkGs (cfg : Config) : List Bytes32 :=
  (List.range 8).map fun i => (cfg.memberBindings.map (·.pkG)).getD i 0

/-- "IMPR", the domain of participant leaves. -/
def participantLeafDomain : BitVec 32 := 0x494d5052

/-- "IMPN", the domain of participant nodes. -/
def participantNodeDomain : BitVec 32 := 0x494d504e

def participantLeaf (slot : BitVec 16) (pkG : Bytes32) (recipient : Address) : Bytes32 :=
  keccak256 (packUint32 participantLeafDomain ++ BigEndian.ofBitVec 2 slot ++ packBytes32 pkG ++
    packAddress recipient)

def participantNode (left right : Bytes32) : Bytes32 :=
  keccak256 (packUint32 participantNodeDomain ++ packBytes32 left ++ packBytes32 right)

/-- One level up the participant tree; the parity of the index says on which side the node is. -/
def participantParent (siblings : Nat → Bytes32) (x : Bytes32 × Nat) (level : Nat) :
    Bytes32 × Nat :=
  (if x.2 % 2 = 0 then participantNode x.1 (siblings level)
    else participantNode (siblings level) x.1, x.2 / 2)

def isParticipant (cfg : Config) (slot : BitVec 16) (pkG : Bytes32) (recipient : Address)
    (siblings : Nat → Bytes32) : Bool :=
  if cfg.activeParticipantCount ≤ slot.toNat ∨ pkG = 0 ∨ recipient = 0 then false
  else
    let leaf := participantLeaf slot pkG recipient
    ((List.range participantTreeDepth).foldl (participantParent siblings) (leaf, slot.toNat)).1 ==
      cfg.participantRoot

/-! ## Requesting a close -/

/-- The era a request names must be the current one. -/
def checkEra (expectedCurrentCloseFreezeNonce expectedHighestCancelledRevivedStateVersion : Nat)
    (l : Lifecycle) : Except Revert Unit :=
  revertIf (l.currentCloseFreezeNonce ≠ expectedCurrentCloseFreezeNonce ∨
    l.highestCancelledRevivedStateVersion ≠ expectedHighestCancelledRevivedStateVersion)
    .invalidFreezeNonce

/-- The body of both requests. -/
def beginClose (cfg : Config) (sat : Satellite ε) (env : Env) (s : Manager) (x : ε) :
    Except Revert (Manager × ε) := do
  let l := s.lifecycle
  revertIf (l.channelStatus = .closed) .channelClosed
  revertIf (l.channelStatus ≠ .active) .channelAlreadyFrozen
  let closeRequestGeneration ← add 64 Revert.panic l.closeRequestGeneration 1
  let currentCloseFreezeNonce ← add 64 Revert.panic l.currentCloseFreezeNonce 1
  let requested : Manager :=
    { s with
      lifecycle :=
        { l with
          closeRequestGeneration
          currentCloseFreezeNonce
          channelStatus := .closePending
          closeRequestedAt := env.timestamp % 2 ^ 64 } }
  let x ← sat.freezeFromManager (cfg.calling env) requested cfg.channelId closeRequestGeneration x
  pure (requested, x)

def requestClose (cfg : Config) (sat : Satellite ε) (env : Env)
    (expectedCurrentCloseFreezeNonce expectedHighestCancelledRevivedStateVersion : Nat)
    (s : Manager) (x : ε) : Except Revert (Manager × ε) := do
  requireReleaseRuntime cfg env
  checkEra expectedCurrentCloseFreezeNonce expectedHighestCancelledRevivedStateVersion s.lifecycle
  revertIf (cfg.isMemberRecipient env.sender = false) .notChannelMember
  beginClose cfg sat env s x

def requestCloseAsParticipant (cfg : Config) (sat : Satellite ε) (env : Env) (slot : BitVec 16)
    (pkG : Bytes32) (siblings : Nat → Bytes32)
    (expectedCurrentCloseFreezeNonce expectedHighestCancelledRevivedStateVersion : Nat)
    (s : Manager) (x : ε) : Except Revert (Manager × ε) := do
  requireReleaseRuntime cfg env
  checkEra expectedCurrentCloseFreezeNonce expectedHighestCancelledRevivedStateVersion s.lifecycle
  revertIf (isParticipant cfg slot pkG env.sender siblings = false) .invalidParticipantProof
  beginClose cfg sat env s x

/-! ## Close intents -/

/-- "IMCS", the domain of close-state identities. -/
def closeStateDomain : BitVec 32 := 0x494d4353

def computeCloseIntentDigest (cfg : Config) (intent : CloseIntent) : Bytes32 :=
  keccak256 (packUint32 closeStateDomain ++ packUint32 cfg.channelId ++
    packBytes32 intent.finalChannelStateDigest ++ packUint64 intent.closeFreezeNonce)

def registeredMemberSetCommitment (cfg : Config) (world : External) : Bytes32 :=
  world.closeMemberSetCommitment cfg.memberPkGs cfg.activeMemberCount

def checkCanonicalCloseMetadata (intent : CloseIntent) : Except Revert Unit :=
  revertIf (intent.closeNonce ≠ intent.closeFreezeNonce ∨
    intent.snapshotMediumBlockNumber ≠ 0 ∨ intent.burnTxHash ≠ 0) .nonCanonicalCloseMetadata

def runCloseVerify (cfg : Config) (world : External) (intent : CloseIntent) (compactProof : Bytes) :
    Except Revert (Bool × List Nat) := do
  let fields : CloseProofFields :=
    { channelId := cfg.channelId
      intent
      memberSetCommitment := registeredMemberSetCommitment cfg world
      memberCount := cfg.activeMemberCount
      minDelegateCount := cfg.activeDelegateCount }
  let publicInputs ← getOrRevert (world.closePublicInputs compactProof) .callReverted
  let verified ←
    getOrRevert (world.bindCloseIntentPublicInputs fields publicInputs) .callReverted
  pure (verified, publicInputs)

def checkCloseProof (cfg : Config) (sat : Satellite ε) (env : Env) (world : External)
    (intent : CloseIntent) (compactProof : Bytes) (s : Manager) (x : ε) : Except Revert Unit := do
  checkCanonicalCloseMetadata intent
  revertIf (world.isFinalizedStateRoot intent.channelFundIntmaxStateRoot = false)
    (.channelFundStateRootNotFinalized intent.channelFundIntmaxStateRoot)
  let (verified, publicInputs) ← runCloseVerify cfg world intent compactProof
  revertIf (verified = false) .invalidCloseProof
  revertIf (publicInputs.length < 103) .panic
  sat.requireSignedHeadBacking (cfg.calling env) s cfg.channelId intent.finalSettledTxChain
    (limbsToBytes32 publicInputs 95) x

/-- Lexicographic strict order on epoch and version. -/
def isNewer (intent : CloseIntent) (current : PendingClose) : Bool :=
  decide (current.finalEpoch < intent.finalEpoch) ||
    (decide (intent.finalEpoch = current.finalEpoch) &&
      decide (current.finalStateVersion < intent.finalStateVersion))

def Config.minResponse (cfg : Config) : Nat :=
  if cfg.challengePeriod < minCloseResponseSecs then cfg.challengePeriod else minCloseResponseSecs

/-- The deadline of an intent that lands at `now`: the natural one, clamped to the horizon,
    floored at a response interval from now, clamped to the absolute end. -/
def deadlineAt (cfg : Config) (horizon now : Nat) : Except Revert Nat := do
  let naturalDeadline ← add 256 Revert.panic now cfg.challengePeriod
  let deadline := if naturalDeadline < horizon then naturalDeadline else horizon
  let floorDeadline ← add 256 Revert.panic now cfg.minResponse
  let deadline := if deadline < floorDeadline then floorDeadline else deadline
  let absoluteEnd := horizon + cfg.minResponse
  pure (if absoluteEnd < deadline then absoluteEnd else deadline)

def storePendingClose (cfg : Config) (env : Env) (intent : CloseIntent)
    (closeIntentDigest : Bytes32) (s : Manager) : Except Revert Manager := do
  let deadline ← deadlineAt cfg s.lifecycle.closeChallengeHorizon env.timestamp
  pure
    { s with
      lifecycle :=
        { s.lifecycle with
          pendingClose :=
            { toCloseIntent := intent
              active := true
              challengeDeadline := deadline % 2 ^ 64
              closeIntentDigest } } }

/-- A replacement must come in the window and be strictly newer. -/
def checkReplacement (cfg : Config) (env : Env) (intent : CloseIntent) (l : Lifecycle) :
    Except Revert Unit := do
  revertIf (l.pendingClose.challengeDeadline < env.timestamp) .challengeWindowClosed
  revertIf (l.closeChallengeHorizon + cfg.minResponse < env.timestamp) .challengeWindowClosed
  revertIf (intent.closeFreezeNonce.toNat ≠ l.currentCloseFreezeNonce) .invalidFreezeNonce
  revertIf (isNewer intent l.pendingClose = false) .closeNotNewer

/-- The first intent of an era sets its horizon. -/
def openEra (cfg : Config) (env : Env) (intent : CloseIntent) (s : Manager) :
    Except Revert Manager := do
  let l := s.lifecycle
  revertIf (l.channelStatus = .active) .closeNotRequested
  revertIf (env.timestamp < l.closeRequestedAt + gracePeriodSecs) .gracePeriodNotElapsed
  revertIf (intent.closeFreezeNonce.toNat ≠ l.currentCloseFreezeNonce) .invalidFreezeNonce
  let horizon ← add 256 Revert.panic env.timestamp (2 * cfg.challengePeriod)
  pure { s with lifecycle := { l with closeChallengeHorizon := horizon % 2 ^ 64 } }

def submitCloseIntent (cfg : Config) (sat : Satellite ε) (env : Env) (world : External)
    (intent : CloseIntent) (compactProof : Bytes) (s : Manager) (x : ε) :
    Except Revert Manager := do
  requireReleaseRuntime cfg env
  revertIf (s.lifecycle.channelStatus = .closed) .channelClosed
  revertIf (intent.tokenCount = 0 ∨ maxChannelTokens < intent.tokenCount) .tokenCountOutOfRange
  checkCloseProof cfg sat env world intent compactProof s x
  let closeIntentDigest := computeCloseIntentDigest cfg intent
  if s.lifecycle.pendingClose.active then
    checkReplacement cfg env intent s.lifecycle
    storePendingClose cfg env intent closeIntentDigest s
  else
    let s ← openEra cfg env intent s
    storePendingClose cfg env intent closeIntentDigest s

/-! ## Cancelling and finalizing -/

def cancelClose (cfg : Config) (sat : Satellite ε) (env : Env) (world : External)
    (request : CancelCloseRequest) (compactProof : Bytes) (s : Manager) (x : ε) :
    Except Revert (Manager × ε) := do
  requireReleaseRuntime cfg env
  let l := s.lifecycle
  revertIf (l.pendingClose.active = false) .closeNotActive
  revertIf (request.closeIntentDigest ≠ l.pendingClose.closeIntentDigest)
    .closeIntentDigestMismatch
  revertIf (request.revivedStateVersion ≤ l.pendingClose.finalStateVersion) .closeNotNewer
  revertIf (request.revivedStateVersion ≤ l.highestCancelledRevivedStateVersion)
    .cancelCloseReplay
  let verified ← getOrRevert (world.verifyCancelClose cfg.channelId request
    (registeredMemberSetCommitment cfg world) l.pendingClose.finalStateVersion compactProof)
    .callReverted
  revertIf (verified = false) .invalidCancelProof
  let x ← sat.unfreezeFromManager (cfg.calling env) cfg.channelId l.closeRequestGeneration x
  let currentCloseFreezeNonce ← sub Revert.panic l.currentCloseFreezeNonce 1
  let cancelled : Manager :=
    { s with
      lifecycle :=
        { l with
          highestCancelledRevivedStateVersion := request.revivedStateVersion
          pendingClose := {}
          channelStatus := .active
          closeRequestedAt := 0
          closeChallengeHorizon := 0
          currentCloseFreezeNonce } }
  pure (cancelled, x)

/-- The cap loop over the active slots: funds of one base token add up. -/
def addFunds (intent : CloseIntent) :
    List TokenSlot → (TokenIndex → Nat) → Except Revert (TokenIndex → Nat)
  | [], funds => .ok funds
  | slot :: rest, funds => do
    let baseToken := intent.tokenRegistry slot
    let fund ← add 256 Revert.panic (funds baseToken) (intent.channelFundAmounts slot).toNat
    addFunds intent rest (Function.update funds baseToken fund)

/-- The active slots of a registry with `tokenCount` tokens. -/
def activeSlots (tokenCount : Nat) : List TokenSlot := (List.finRange 10).take tokenCount

def finalizedOf (pending : PendingClose) (tokenFundsDigest : Bytes32) (f : Finalized) : Finalized :=
  { closeIntentDigest := pending.closeIntentDigest
    channelStateDigest := pending.finalChannelStateDigest
    balanceStateH1 := pending.finalBalanceStateH1
    burnTxHash := pending.burnTxHash
    closeWithdrawalDigest := pending.closeWithdrawalDigest
    channelFundIntmaxStateRoot := pending.channelFundIntmaxStateRoot
    settledTxChain := pending.finalSettledTxChain
    settledTxAccumulatorRoot := pending.finalSettledTxAccumulatorRoot
    epoch := pending.finalEpoch
    smallBlockNumber := pending.finalSmallBlockNumber
    stateVersion := pending.finalStateVersion
    tokenRegistry := fun slot =>
      if slot.val < pending.tokenCount then pending.tokenRegistry slot else f.tokenRegistry slot
    tokenCount := pending.tokenCount
    tokenFundsDigest }

def finalizeClose (env : Env) (world : External) (s : Manager) : Except Revert Manager := do
  let l := s.lifecycle
  let pending := l.pendingClose
  revertIf (pending.active = false) .closeNotActive
  revertIf (env.timestamp ≤ pending.challengeDeadline) .challengeWindowOpen
  revertIf (maxChannelTokens < pending.tokenCount) .panic
  let finalizedChannelFundAmount ← addFunds pending.toCloseIntent (activeSlots pending.tokenCount)
    s.accounts.finalizedChannelFundAmount
  let digest ← getOrRevert
    (world.tokenFundsDigest pending.tokenRegistry pending.tokenCount pending.channelFundAmounts)
    .callReverted
  pure
    { s with
      finalized := finalizedOf pending digest s.finalized
      accounts := { s.accounts with finalizedChannelFundAmount }
      lifecycle :=
        { l with
          channelStatus := .closed
          closeRequestedAt := 0
          closeChallengeHorizon := 0
          pendingClose := {} } }

def finalizeCloseGuarded (cfg : Config) (env : Env) (world : External)
    (expectedCloseIntentDigest : Bytes32) (expectedCloseRequestGeneration : Nat) (s : Manager) :
    Except Revert Manager := do
  requireReleaseRuntime cfg env
  let l := s.lifecycle
  revertIf (l.pendingClose.active = false) .closeNotActive
  revertIf (l.pendingClose.closeIntentDigest ≠ expectedCloseIntentDigest ∨
    l.closeRequestGeneration ≠ expectedCloseRequestGeneration) .closeIntentDigestMismatch
  finalizeClose env world s

end Intmax.Settlement
