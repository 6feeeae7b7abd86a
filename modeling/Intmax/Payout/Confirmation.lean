import Intmax.Payout.Runs
import Intmax.Rollup.Withdrawals

/-! # Confirming a paid withdrawal

The confirmation that the CLI assembles from the receipt of a payout and the rollup's state at the
finalized checkpoint of the receipt.  The recipient's credit is shared with every other payout to
it and with its pulls, so the confirmation compares two readings between which the payout need not
have been alone.
-/

namespace Intmax.Payout

open Checked Transition List Option
open Rollup (sampleConfig sampleEnv External Call)
open Rollup (Withdrawal Event WithdrawArgs Config)

/-- A transaction as the finalized chain holds it. -/
structure L1Transaction where
  txHash : Bytes32
  blockHash : Bytes32
  blockNumber : Nat
  chainId : Nat
  sender : Address
  target : Address
  nonce : Nat
  calldataHash : Bytes32
  success : Bool

/-- `parse_l1_receipt`, over an RPC that tells the truth. -/
def L1Transaction.receipt (tx : L1Transaction) (callKind : L1CallKind)
    (finalizedCheckpoint : L1FinalizedCheckpoint) : L1TransactionReceipt :=
  { txHash := tx.txHash
    blockHash := tx.blockHash
    blockNumber := tx.blockNumber
    chainId := tx.chainId
    sender := tx.sender
    target := tx.target
    success := tx.success
    callKind
    calldataHash := tx.calldataHash
    transactionNonce := tx.nonce
    finalizedCheckpoint }

/-- `read_pending_credit_at`. -/
def readPendingCreditAt (s : Rollup) (withdrawal : Withdrawal) : Nat :=
  if withdrawal.tokenIndex = 0 then s.vault.pendingWithdrawals withdrawal.recipient
  else s.vault.pendingTokenWithdrawals withdrawal.tokenIndex withdrawal.recipient

/-- The confirmation that `run_partial_withdrawal_payout` assembles. -/
def assembleConfirmation (artifacts : PartialWithdrawalProofArtifacts) (intent : BroadcastIntent)
    (tx : L1Transaction) (checkpoint : L1FinalizedCheckpoint) (s : Rollup) : PayoutConfirmation :=
  let payoutKind : L1CallKind :=
    if artifacts.withdrawal.tokenIndex = 0 then .withdrawNative else .withdrawErc20
  { receipt := tx.receipt payoutKind checkpoint
    finalizedAnchorObserved :=
      s.chain.isFinalizedStateRoot artifacts.producerAnchor.extendedStateCommitment
    nullifierUsedObserved := s.vault.withdrawalNullifierUsed artifacts.withdrawal.nullifier
    creditBefore := intent.creditBefore
    creditAfter := readPendingCreditAt s artifacts.withdrawal }

section
variable [Keccak] [Serde]

/-- The call that pays the candidate. -/
def PartialWithdrawalCandidate.Pays (candidate : PartialWithdrawalCandidate) (e : Event) : Prop :=
  ∃ args : WithdrawArgs, args.ws = [candidate.artifacts.withdrawal] ∧
    e.call = if candidate.artifacts.withdrawal.tokenIndex = 0 then .withdrawNative args
      else .withdrawERC20 args

/-- The states of the rollup that matter: at the head where the credit was read before signing,
    right before and right after the payout, and at the receipt's finalized checkpoint. -/
structure Readings where
  intended : Rollup
  unpaid : Rollup
  paid : Rollup
  finalized : Rollup

/-- The candidate is the one in flight, its intent is journaled, and exactly that call was mined,
    succeeded and is finalized.  Any other calls stand between the readings. -/
structure Paid (cfg : Config) (store : PartialWithdrawalPayoutStore)
    (candidate : PartialWithdrawalCandidate) (intent : BroadcastIntent) (tx : L1Transaction)
    (checkpoint : L1FinalizedCheckpoint) (at_ : Readings) : Prop where
  healthy : store.poisoned = false
  verified : verifyDisk store.disk = .ok ()
  active : store.disk.active = some candidate
  unconfirmed : candidate.payoutConfirmation = none
  journaled : candidate.payoutBroadcast = some intent
  -- the journal was written from the state at the durable head, where the anchor was finalized
  reachable : Rollup.Reachable cfg at_.intended
  observed : intent.creditBefore = readPendingCreditAt at_.intended candidate.artifacts.withdrawal
  anchored : at_.intended.chain.isFinalizedStateRoot
    candidate.artifacts.producerAnchor.extendedStateCommitment = true
  -- the history
  before : ∃ events, Path (Rollup.Step cfg) at_.intended events at_.unpaid
  payout : ∃ e, Rollup.Step cfg at_.unpaid e at_.paid ∧ e.env.sender = intent.caller ∧
    candidate.Pays e
  after : ∃ events, Path (Rollup.Step cfg) at_.paid events at_.finalized
  -- the transaction
  sender : tx.sender = intent.caller
  nonce : tx.nonce = intent.callerNonce
  calldata : tx.calldataHash = intent.calldataHash
  target : tx.target = candidate.rollup
  chain : tx.chainId = candidate.chainId
  success : tx.success = true
  hashed : tx.txHash ≠ 0
  later : intent.startBlock ≤ tx.blockNumber
  covered : checkpoint.coversReceipt tx.blockNumber tx.blockHash = .ok ()
  sameChain : checkpoint.chainId = candidate.chainId

/-- `confirm_payout` accepts: what it writes passes its check, and it answers once the file is
    replaced. -/
def Confirms (store : PartialWithdrawalPayoutStore) (candidateId : Bytes32)
    (confirmation : PayoutConfirmation) : Prop :=
  ∃ next candidate, (Operation.confirmPayout candidateId confirmation).want store.disk =
      .ok (.write next candidate) ∧ verifyDisk next = .ok () ∧
    ∀ file bytes, encodeSnapshot next = .ok bytes →
      ((Operation.confirmPayout candidateId confirmation).run .done store file).1 = .ok candidate

/-! ## What the confirmation passes -/

variable {hashes hashes' completed : List Bytes32} {txHash : Bytes32}
  {a : PartialWithdrawalCandidate} {confirmation : PayoutConfirmation}

omit [Keccak] [Serde] in
theorem pushTxHash_ok_iff :
    pushTxHash hashes txHash = .ok hashes' ↔ txHash ≠ 0 ∧
      (txHash ∈ hashes ∧ hashes' = hashes ∨
        txHash ∉ hashes ∧ hashes.length < maxReplacementTxHashes ∧
        hashes' = hashes ++ [txHash]) := by
  simp only [pushTxHash, bind_ok, revertIf_ok, exists_unit]
  refine and_congr_right fun _ => ?_
  by_cases recorded : txHash ∈ hashes
  · simp [recorded]
    exact eq_comm
  · simp only [recorded, if_false, bind_ok, revertIf_ok, exists_unit, pure_ok,
      not_false_eq_true, true_and, false_and, false_or, not_le]
    exact and_congr_right fun _ => eq_comm

omit [Keccak] [Serde] in
/-- A hash that can be recorded leaves a list that passes its check. -/
theorem verifyTxHashes_push {phase : String} (checked : verifyTxHashes hashes true phase = .ok ())
    (pushed : pushTxHash hashes txHash = .ok hashes') :
    txHash ∈ hashes' ∧ verifyTxHashes hashes' true phase = .ok () := by
  obtain ⟨nonzero, ⟨recorded, rfl⟩ | ⟨new, room, rfl⟩⟩ := pushTxHash_ok_iff.mp pushed
  · exact ⟨recorded, checked⟩
  · simp only [verifyTxHashes, bind_ok, revertIf_ok, exists_unit, not_or, not_not] at checked ⊢
    obtain ⟨-, -, zero, distinct⟩ := checked
    refine ⟨by simp, by simp, ?_, ?_, ?_⟩
    · simp
      omega
    · rw [mem_append, mem_singleton, not_or]
      exact ⟨zero, nonzero.symm⟩
    · refine nodup_append.mpr ⟨distinct, nodup_singleton _, ?_⟩
      rintro a member b last rfl
      exact new (mem_singleton.mp last ▸ member)

/-- An active candidate that is not confirmed has no later phase behind it. -/
theorem verifyActive_unconfirmed (checked : verifyActive completed a = .ok ())
    (unconfirmed : a.payoutConfirmation = none) :
    a.pullBroadcast = none ∧ a.pullConfirmation = none ∧ a.recipientPullDelegated = false := by
  simp only [verifyActive, verifyPhases, bind_ok, exists_unit, revertIf_ok] at checked
  obtain ⟨-, ⟨-, -, -, pull, delegated, pulled, -⟩, -⟩ := checked
  have noPull : a.pullBroadcast = none := by
    simpa [unconfirmed] using pull
  refine ⟨noPull, by simpa [noPull] using pulled, ?_⟩
  simpa [unconfirmed] using delegated

/-- Confirming keeps the active candidate well formed. -/
theorem verifyActive_confirm (checked : verifyActive completed a = .ok ())
    (unconfirmed : a.payoutConfirmation = none)
    (valid : validatePayoutConfirmation a confirmation = .ok ())
    (pushed : pushTxHash a.payoutTxHashes confirmation.receipt.txHash = .ok hashes) :
    verifyActive completed
      { a with payoutTxHashes := hashes, payoutConfirmation := some confirmation } = .ok () := by
  obtain ⟨noPull, notPulled, notDelegated⟩ := verifyActive_unconfirmed checked unconfirmed
  obtain ⟨intent, journaled, -⟩ := bind_ok.mp valid
  rw [getOrRevert_ok] at journaled
  simp only [verifyActive, bind_ok, exists_unit, revertIf_ok] at checked ⊢
  obtain ⟨identity, phases, -⟩ := checked
  simp only [verifyPhases, bind_ok, exists_unit, revertIf_ok, journaled, isSome_some] at phases
  obtain ⟨-, payoutHashes, zero, -, -, -, pullHashes⟩ := phases
  obtain ⟨listed, payoutHashes'⟩ := verifyTxHashes_push payoutHashes pushed
  refine ⟨identity, ?_, ?_, ?_, ?_, ?_⟩
  · simp only [verifyPhases, bind_ok, exists_unit, revertIf_ok, journaled,
      isSome_some]
    exact ⟨by simp, payoutHashes', zero, by simp, by simp [notDelegated], by simp [notPulled],
      pullHashes⟩
  · simp [verifyPullIntent, noPull]
  · simp only [verifyConfirmations, notPulled, bind_ok, exists_unit, revertIf_ok,
      mapError_ok]
    exact ⟨⟨not_not.mpr listed, valid⟩, rfl⟩
  · simp [PartialWithdrawalCandidate.isComplete, notPulled, notDelegated]
  · simp

theorem confirms_iff {store : PartialWithdrawalPayoutStore} {candidate : PartialWithdrawalCandidate}
    (healthy : store.poisoned = false) (verified : verifyDisk store.disk = .ok ())
    (active : store.disk.active = some candidate)
    (unconfirmed : candidate.payoutConfirmation = none) :
    Confirms store candidate.candidateId confirmation ↔
      validatePayoutConfirmation candidate confirmation = .ok () ∧
      ∃ hashes, pushTxHash candidate.payoutTxHashes confirmation.receipt.txHash = .ok hashes := by
  constructor
  · rintro ⟨next, candidate', wanted, -⟩
    simp only [Operation.want, wantMutation, active, bind_ok, exists_unit,
      getOrRevert_ok, some.injEq] at wanted
    obtain ⟨a, rfl, -, result, updated, -⟩ := wanted
    simp [confirmPayout, unconfirmed] at updated
    obtain ⟨valid, hashes, pushed, -⟩ := updated
    exact ⟨valid, hashes, pushed⟩
  · rintro ⟨valid, hashes, pushed⟩
    have checked := verifyDisk_active verified active
    have checked' := verifyActive_confirm checked unconfirmed valid pushed
    obtain ⟨-, notPulled, notDelegated⟩ := verifyActive_unconfirmed checked unconfirmed
    let candidate' : PartialWithdrawalCandidate :=
      { candidate with payoutTxHashes := hashes, payoutConfirmation := some confirmation }
    have incomplete : candidate'.isComplete = false := by
      simp [PartialWithdrawalCandidate.isComplete, candidate', notPulled, notDelegated]
    have updated : confirmPayout confirmation candidate = .ok candidate' := by
      simp [confirmPayout, valid, unconfirmed, pushed, candidate']
    have wanted : (Operation.confirmPayout candidate.candidateId confirmation).want store.disk =
        .ok (.write { store.disk with active := some candidate' } candidate') := by
      simp [Operation.want, wantMutation, active, updated, incomplete]
    have passes : verifyDisk { store.disk with active := some candidate' } = .ok () := by
      simp [verifyDisk] at verified ⊢
      exact ⟨verified.1, verified.2.1, checked'⟩
    refine ⟨_, candidate', wanted, passes, fun file bytes encoded => ?_⟩
    have ready : (do store.ensureHealthy
                     (Operation.confirmPayout candidate.candidateId confirmation).want store.disk :
        PResult Wanted) = .ok (.write { store.disk with active := some candidate' }
          candidate') := by
      rw [wanted, PartialWithdrawalPayoutStore.ensureHealthy, healthy]
      rfl
    rw [Operation.run, ready]
    simp only [commit, passes, persistSnapshot, encoded]
    rfl

/-! ## A paid withdrawal -/

section
variable {cfg : Config} {store : PartialWithdrawalPayoutStore}
  {candidate : PartialWithdrawalCandidate} {intent : BroadcastIntent} {tx : L1Transaction}
  {checkpoint : L1FinalizedCheckpoint} {at_ : Readings}

/-- The payout adds the amount to the recipient's credit and uses up the nullifier. -/
theorem Paid.effect (paid : Paid cfg store candidate intent tx checkpoint at_) :
    readPendingCreditAt at_.paid candidate.artifacts.withdrawal =
      readPendingCreditAt at_.unpaid candidate.artifacts.withdrawal +
        candidate.artifacts.withdrawal.amount.toNat ∧
    at_.paid.vault.withdrawalNullifierUsed candidate.artifacts.withdrawal.nullifier = true := by
  obtain ⟨e, step, -, args, leaves, call⟩ := paid.payout
  have submitted : e.call.withdrawals = some args := by
    rw [call]
    split <;> rfl
  have pays := step.paysLeaves submitted
  rw [leaves] at pays
  refine ⟨(pays.credited _ _).trans ?_, (pays.used _).mpr (.inr (by simp))⟩
  simp [Rollup.leafTotal, readPendingCreditAt, Rollup.Vault.credit]

/-- What was true of the rollup at the payout is true at the checkpoint. -/
theorem Paid.observed_finalized (paid : Paid cfg store candidate intent tx checkpoint at_) :
    at_.finalized.chain.isFinalizedStateRoot
      candidate.artifacts.producerAnchor.extendedStateCommitment = true ∧
    at_.finalized.vault.withdrawalNullifierUsed candidate.artifacts.withdrawal.nullifier =
      true := by
  obtain ⟨earlier, before⟩ := paid.before
  obtain ⟨e, step, -⟩ := paid.payout
  obtain ⟨later, after⟩ := paid.after
  constructor
  · exact (Rollup.run_keepsFinalized paid.reachable ((before.snoc step).trans after)).roots _
      paid.anchored
  · exact after.invariant (fun _ _ _ used step => step.nullifierUsed used) paid.effect.2

/-- Among its checks, the confirmation of a paid withdrawal can only fail the one of the credit. -/
theorem Paid.validate_iff (paid : Paid cfg store candidate intent tx checkpoint at_) :
    validatePayoutConfirmation candidate
        (assembleConfirmation candidate.artifacts intent tx checkpoint at_.finalized) = .ok () ↔
      readPendingCreditAt at_.finalized candidate.artifacts.withdrawal = intent.creditBefore +
        candidate.artifacts.withdrawal.amount.toNat := by
  obtain ⟨anchor, used⟩ := paid.observed_finalized
  have block : tx.blockHash ≠ 0 := by
    have covered := paid.covered
    simp [L1FinalizedCheckpoint.coversReceipt] at covered
    exact covered.2.1
  have lane : (if candidate.artifacts.withdrawal.tokenIndex = 0 then L1CallKind.withdrawNative
      else .withdrawErc20) = expectedPayoutKind candidate.lane := by
    have checked := verifyDisk_active paid.verified paid.active
    simp only [verifyActive, verifyIdentity, bind_ok, exists_unit, revertIf_ok,
      not_or, not_not] at checked
    obtain ⟨⟨-, id, -, -, lane⟩, -⟩ := checked
    rw [lane, laneFor]
    split <;> rfl
  simp only [validatePayoutConfirmation, assembleConfirmation, L1Transaction.receipt,
    paid.journaled, bind_ok, getOrRevert_ok, revertIf_ok, exists_unit,
    mapError_ok, paid.covered, paid.sender, paid.nonce, paid.calldata, paid.target, paid.chain,
    paid.success, paid.sameChain, anchor, used, lane, not_or, not_not, some.injEq,
    Bool.true_eq_false, not_false_eq_true, true_and, and_true]
  constructor
  · rintro ⟨_, rfl, -, -, above, exactly⟩
    omega
  · intro credited
    exact ⟨intent, rfl, rfl, ⟨paid.hashed, block, rfl, not_lt.mpr paid.later, rfl, rfl⟩,
      by omega, by omega⟩

/-- A withdrawal that was paid by exactly the journaled call is confirmed if and only if the other
    calls between the two readings leave the recipient's credit as it was, taken together, and the
    hash that was mined is recorded or can still be recorded. -/
theorem paid_withdrawal_confirmed (paid : Paid cfg store candidate intent tx checkpoint at_) :
    Confirms store candidate.candidateId
        (assembleConfirmation candidate.artifacts intent tx checkpoint at_.finalized) ↔
      readPendingCreditAt at_.unpaid candidate.artifacts.withdrawal +
          readPendingCreditAt at_.finalized candidate.artifacts.withdrawal =
        readPendingCreditAt at_.intended candidate.artifacts.withdrawal +
          readPendingCreditAt at_.paid candidate.artifacts.withdrawal ∧
      (tx.txHash ∈ candidate.payoutTxHashes ∨
        candidate.payoutTxHashes.length < maxReplacementTxHashes) := by
  rw [confirms_iff paid.healthy paid.verified paid.active paid.unconfirmed, paid.validate_iff,
    paid.effect.1, paid.observed]
  refine and_congr (by omega) ?_
  have hashed : (assembleConfirmation candidate.artifacts intent tx checkpoint
      at_.finalized).receipt.txHash = tx.txHash := rfl
  simp only [hashed, pushTxHash_ok_iff, ne_eq, paid.hashed, not_false_eq_true, true_and, exists_or,
    exists_and_left, exists_eq, and_true]
  constructor
  · rintro (recorded | ⟨-, room⟩)
    · exact .inl recorded
    · exact .inr room
  · intro known
    by_cases recorded : tx.txHash ∈ candidate.payoutTxHashes
    · exact .inl recorded
    · exact .inr ⟨recorded, known.resolve_left recorded⟩

end

end

/-! ### A payout, alone and in company -/

section
attribute [local instance] evmKeccak sampleSerde

/-- The proof of one leaf, against the genesis root. -/
def leafStatement (w : Withdrawal) : Rollup.WithdrawalStatement :=
  { leaves := [w], withdrawalProver := 0xb2, extCommitment := 0x9e, blockNumber := 9 }

/-- The call that pays one leaf. -/
def payLeaf (number : Nat) (w : Withdrawal) : Env × External × Call :=
  (sampleEnv 0xc3 0 number, Rollup.provingExternal (leafStatement w),
    .withdrawNative { ws := [w], withdrawalProver := 0xb2, compactProof := [] })

/-- Somebody deposits ETH. -/
def sampleDeposit : Env × External × Call :=
  (sampleEnv 4 10 2, Rollup.sampleExternal, .deposit
    { recipient := 0xabc, tokenIndex := 0, amount := 10, auxData := 0 })

/-- Another withdrawal to the recipient of the sample. -/
def otherWithdrawal : Withdrawal :=
  { recipient := 0xa1, tokenIndex := 0, amount := 4, nullifier := 0xff, auxData := 0xae }

/-- The state after a call of the sample deployment, and whether the call completes. -/
def afterCall (s : Rollup) (c : Env × External × Call) : Rollup × Bool :=
  match Rollup.exec sampleConfig Rollup.sampleSatellite c.1 c.2.1 c.2.2 s () with
  | .ok (_, t, _) => (t, true)
  | .error _ => (s, false)

theorem afterCall_step {s t : Rollup} {env : Env} {world : External} {call : Call}
    (reaches : t = (afterCall s (env, world, call)).1)
    (completes : (afterCall s (env, world, call)).2 = true) :
    ∃ outcome, Rollup.Step sampleConfig s ⟨env, call, outcome⟩ t := by
  rw [reaches]
  unfold afterCall at completes ⊢
  split at completes
  case h_1 outcome t j ran => exact ⟨outcome, Unit, Rollup.sampleSatellite, world, (), j, ran⟩
  case h_2 => cases completes

def fundedState : Rollup := (afterCall (Rollup.initial sampleConfig) sampleDeposit).1

def paidState : Rollup := (afterCall fundedState (payLeaf 101 sampleRequest.artifacts.withdrawal)).1

def crowdedState : Rollup := (afterCall paidState (payLeaf 102 otherWithdrawal)).1

def intendedCandidate : PartialWithdrawalCandidate :=
  { sampleCandidate with payoutBroadcast := some sampleIntent }

def intendedStore : PartialWithdrawalPayoutStore :=
  { disk := { emptySnapshot with active := some intendedCandidate }, poisoned := false }

def sampleTransaction : L1Transaction :=
  { txHash := 0x7a, blockHash := 0xb10c, blockNumber := 101, chainId := 31337, sender := 0xc3
    target := 0x1000, nonce := 0, calldataHash := 0xcd, success := true }

def sampleCheckpoint : L1FinalizedCheckpoint :=
  { chainId := 31337, blockNumber := 110, blockHash := 0xb11c, parentHash := 0xb11b
    source := .rpcFinalized }

variable {finalized : Rollup}

/-- The journaled call of the sample, once it is mined and finalized. -/
theorem paid_of_step {intended paid : Rollup} (reachable : Rollup.Reachable sampleConfig intended)
    (observed : readPendingCreditAt intended sampleRequest.artifacts.withdrawal = 0)
    (anchored : intended.chain.isFinalizedStateRoot 0x9e = true)
    (payout : ∃ outcome, Rollup.Step sampleConfig intended
      ⟨sampleEnv 0xc3 0 101, (payLeaf 101 sampleRequest.artifacts.withdrawal).2.2, outcome⟩
      paid) (after : ∃ events, Path (Rollup.Step sampleConfig) paid events finalized) :
    Paid sampleConfig intendedStore intendedCandidate sampleIntent sampleTransaction
      sampleCheckpoint { intended, unpaid := intended, paid, finalized } := by
  obtain ⟨outcome, step⟩ := payout
  exact
    { healthy := rfl
      verified := by decide +kernel
      active := rfl
      unconfirmed := rfl
      journaled := rfl
      reachable
      observed := observed.symm
      anchored
      before := ⟨[], .nil⟩
      payout := ⟨_, step, rfl, _, rfl, rfl⟩
      after
      sender := rfl
      nonce := rfl
      calldata := rfl
      target := rfl
      chain := rfl
      success := rfl
      hashed := by decide
      later := by decide
      covered := by decide +kernel
      sameChain := rfl }

theorem sample_paid (after : ∃ events, Path (Rollup.Step sampleConfig) paidState
    events finalized) :
    Paid sampleConfig intendedStore intendedCandidate sampleIntent sampleTransaction
      sampleCheckpoint { intended := fundedState, unpaid := fundedState, paid := paidState
                         finalized } := by
  obtain ⟨_, deposited⟩ := afterCall_step (show fundedState = _ from rfl) (by decide +kernel)
  exact paid_of_step ⟨_, .single deposited⟩ (by decide +kernel) (by decide +kernel)
    (afterCall_step (show paidState = _ from rfl) (by decide +kernel)) after

theorem paid_withdrawal_confirmed_alone : ∃ store candidate intent tx checkpoint at_,
    Paid sampleConfig store candidate intent tx checkpoint at_ ∧
    Confirms store candidate.candidateId
      (assembleConfirmation candidate.artifacts intent tx checkpoint at_.finalized) := by
  have paid := sample_paid ⟨[], .nil⟩
  refine ⟨_, _, _, _, _, _, paid, (paid_withdrawal_confirmed paid).mpr ⟨?_, .inr ?_⟩⟩
  · dsimp only
  · decide

/-- A second withdrawal to the same recipient before the checkpoint, and the payout that was mined
    and finalized is refused. -/
theorem crowded_payout_refused : ∃ store candidate intent tx checkpoint at_,
    Paid sampleConfig store candidate intent tx checkpoint at_ ∧
    ¬Confirms store candidate.candidateId
      (assembleConfirmation candidate.artifacts intent tx checkpoint at_.finalized) := by
  obtain ⟨_, crowded⟩ := afterCall_step (show crowdedState = _ from rfl) (by decide +kernel)
  have paid := sample_paid ⟨_, .single crowded⟩
  refine ⟨_, _, _, _, _, _, paid, fun confirms => ?_⟩
  have valid := ((confirms_iff paid.healthy paid.verified paid.active paid.unconfirmed).mp
    confirms).1
  exact absurd (paid.validate_iff.mp valid) (by decide +kernel)

end

end Intmax.Payout
