import Intmax.Rollup.Hashing

/-! # Posting and rolling back batches

`postBlock` and `rollbackBatch` of the rollup, with the calls they make to the
exit satellite.  The satellite is a parameter: its state is threaded through,
and it may refuse a post, which reverts the whole batch.
-/

namespace Intmax.Rollup

open Checked

/-- The calls the rollup makes to the contract installed as its exit satellite.
    The first argument is the address called. -/
structure Satellite (σ : Type) where
  recordPost : Address → ChannelId → Nat → σ → Except Revert σ
  rollbackPost : Address → Nat → σ → Except Revert σ
  bindManager : Address → Rollup → Address → σ → Except Revert σ

variable [Keccak] {σ : Type}

/-! ## Posting -/

/-- True when the sub-block names at least one signer slot. -/
def hasSigner (keyIds : List (BitVec 32)) : Bool := keyIds.any (· != 0)

/-- The running values of the sub-block loop. -/
structure PostCursor (σ : Type) where
  currentHash : Bytes32
  currentBlockNumber : Nat
  blockDepositHash : Nat → Bytes32
  blockChannelRegHash : Nat → Bytes32
  satellite : σ

/-- The chain values a batch starts from and the checkpoint it consumes.  Only the
    last sub-block carries the checkpoint's chains. -/
structure BatchChains where
  previousDepositHashChain : Bytes32
  batchDepositHashChain : Bytes32
  previousChannelRegHashChain : Bytes32
  batchChannelRegHashChain : Bytes32

def recordSigned (sat : Satellite σ) (exitMaterializer : Address) (block : SubBlock)
    (number : Nat) (j : σ) : Except Revert σ :=
  if exitMaterializer ≠ 0 ∧ hasSigner block.keyIds = true then
    sat.recordPost exitMaterializer block.channelId number j
  else .ok j

def postSubBlock (sat : Satellite σ) (exitMaterializer : Address) (chains : BatchChains)
    (isLast : Bool) (block : SubBlock) (c : PostCursor σ) : Except Revert (PostCursor σ) := do
  let number ← add 64 Revert.panic c.currentBlockNumber 1
  let satellite ← recordSigned sat exitMaterializer block number c.satellite
  let depositHash :=
    if isLast then chains.batchDepositHashChain else chains.previousDepositHashChain
  let regHash :=
    if isLast then chains.batchChannelRegHashChain else chains.previousChannelRegHashChain
  pure
    { currentHash := computeBlockHash c.currentHash block depositHash regHash
      currentBlockNumber := number
      blockDepositHash := Function.update c.blockDepositHash number depositHash
      blockChannelRegHash := Function.update c.blockChannelRegHash number regHash
      satellite }

def postSubBlocks (sat : Satellite σ) (exitMaterializer : Address) (chains : BatchChains) :
    List SubBlock → PostCursor σ → Except Revert (PostCursor σ)
  | [], c => .ok c
  | block :: rest, c => do
    let c ← postSubBlock sat exitMaterializer chains rest.isEmpty block c
    postSubBlocks sat exitMaterializer chains rest c

/-- The checkpoint a batch is posted against. -/
structure BatchCheckpoint where
  depositChain : Bytes32
  registrationChain : Bytes32
  depositCount : Nat

def batchChains (checkpoint : BatchCheckpoint) (s : Chain) : BatchChains :=
  { previousDepositHashChain := s.depositHashChain
    batchDepositHashChain := checkpoint.depositChain
    previousChannelRegHashChain := s.channelRegHashChain
    batchChannelRegHashChain := checkpoint.registrationChain }

def startCursor (s : Chain) (j : σ) : PostCursor σ :=
  { currentHash := s.blockHashChain
    currentBlockNumber := s.blockNumber
    blockDepositHash := s.blockDepositHash
    blockChannelRegHash := s.blockChannelRegHash
    satellite := j }

def postBlock (sat : Satellite σ) (exitMaterializer : Address) (subBlocks : List SubBlock)
    (checkpoint : BatchCheckpoint) (s : Chain) (j : σ) :
    Except Revert (BatchMetadata × Chain × σ) := do
  revertIf (subBlocks = []) .emptyBatch
  let startBlockNumber ← add 64 Revert.panic s.blockNumber 1
  let postingRound ← add 64 Revert.panic s.postingRound 1
  let c ← postSubBlocks sat exitMaterializer (batchChains checkpoint s) subBlocks
    (startCursor s j)
  let m : BatchMetadata :=
    { startBlockNumber
      endBlockNumber := c.currentBlockNumber
      previousBlockHash := s.blockHashChain
      previousDepositHashChain := s.depositHashChain
      postingRoundBefore := s.postingRound
      postingRoundAfter := postingRound
      processedDepositCountBefore := s.processedDepositCount
      previousChannelRegHashChain := s.channelRegHashChain }
  let posted : Chain :=
    { s with
      blockHashChain := c.currentHash
      blockDepositHash := c.blockDepositHash
      blockChannelRegHash := c.blockChannelRegHash
      blockHashChainAt := Function.update s.blockHashChainAt c.currentBlockNumber c.currentHash
      blockNumber := c.currentBlockNumber
      postingRound
      depositHashChain := checkpoint.depositChain
      channelRegHashChain := checkpoint.registrationChain
      processedDepositCount := checkpoint.depositCount }
  pure (m, posted, c.satellite)

/-! ## Rolling back -/

def deleteBlock (number : Nat) (s : Chain) : Chain :=
  { s with
    blockDepositHash := Function.update s.blockDepositHash number 0
    blockChannelRegHash := Function.update s.blockChannelRegHash number 0
    blockHashChainAt := Function.update s.blockHashChainAt number 0 }

def rollbackSigned (sat : Satellite σ) (exitMaterializer : Address) (number : Nat) (j : σ) :
    Except Revert σ :=
  if exitMaterializer ≠ 0 then sat.rollbackPost exitMaterializer number j else .ok j

/-- The descending delete loop over the `n` blocks from `start` on. -/
def rollbackBlocks (sat : Satellite σ) (exitMaterializer : Address) (start : Nat) :
    Nat → Chain × σ → Except Revert (Chain × σ)
  | 0, x => .ok x
  | n + 1, (s, j) => do
    let j ← rollbackSigned sat exitMaterializer (start + n) j
    rollbackBlocks sat exitMaterializer start n (deleteBlock (start + n) s, j)

def rollbackBatch (sat : Satellite σ) (exitMaterializer : Address) (submissionId : Nat)
    (s : Chain) (j : σ) : Except Revert (Chain × σ) := do
  let m := s.batchMetadata submissionId
  if m.endBlockNumber = 0 ∧ m.startBlockNumber = 0 then
    pure (s, j)
  else
    let s :=
      { s with
        blockHashChain := m.previousBlockHash
        blockNumber := if m.startBlockNumber = 0 then 0 else m.startBlockNumber - 1
        depositHashChain := m.previousDepositHashChain
        channelRegHashChain := m.previousChannelRegHashChain
        postingRound := m.postingRoundBefore }
    let blocks :=
      if m.startBlockNumber ≤ m.endBlockNumber ∧ m.endBlockNumber ≠ 0 then
        m.endBlockNumber - m.startBlockNumber + 1
      else 0
    let (s, j) ← rollbackBlocks sat exitMaterializer m.startBlockNumber blocks (s, j)
    pure ({ s with processedDepositCount := m.processedDepositCountBefore }, j)

end Intmax.Rollup
