import Intmax.Settlement.System

/-! # What completed calls of the manager have checked and changed

`Effect` says once, for every entry point, how a completed call moves the
lifecycle and the accounts; the invariants are case analyses on it.
-/

namespace Intmax.Settlement

open Checked Option Accounts

variable {ε : Type} {cfg : Config} {sat : Satellite ε} {env : Env} {world : External}
  {s s' : Manager} {x x' : ε}

/-! ## The lifecycle -/

/-- The manager once a close is requested. -/
def requested (env : Env) (s : Manager) : Manager :=
  { s with
    lifecycle :=
      { s.lifecycle with
        closeRequestGeneration := s.lifecycle.closeRequestGeneration + 1
        currentCloseFreezeNonce := s.lifecycle.currentCloseFreezeNonce + 1
        channelStatus := .closePending
        closeRequestedAt := env.timestamp % 2 ^ 64 } }

/-- A completed close request. -/
structure Requests (cfg : Config) (sat : Satellite ε) (env : Env) (s s' : Manager) (x x' : ε) :
    Prop where
  active : s.lifecycle.channelStatus = .active
  called : sat.freezeFromManager (cfg.calling env) s' cfg.channelId
    (s.lifecycle.closeRequestGeneration + 1) x = .ok x'
  manager_eq : s' = requested env s

variable {nonce highest amount : Nat} {recipient : Address} {nullifier : Bytes32} {call : Call}

theorem beginClose_requests (h : beginClose cfg sat env s x = .ok (s', x')) :
    Requests cfg sat env s s' x x' := by
  simp only [beginClose, bind_ok, revertIf_ok, exists_unit, add_ok_iff, pure_ok] at h
  obtain ⟨-, active, _, ⟨-, rfl⟩, _, ⟨-, rfl⟩, x₁, called, same⟩ := h
  cases same
  exact ⟨not_not.mp active, called, rfl⟩

/-- The manager with a new pending intent, under the horizon of its era. -/
def withPending (pending : PendingClose) (horizon : Nat) (s : Manager) : Manager :=
  { s with
    lifecycle := { s.lifecycle with closeChallengeHorizon := horizon, pendingClose := pending } }

section
variable [Keccak]

/-- A completed submission: in an open era a replacement, otherwise the first intent. -/
structure Submits (cfg : Config) (env : Env) (intent : CloseIntent) (horizon deadline : Nat)
    (s s' : Manager) : Prop where
  window : s.lifecycle.pendingClose.active = true ∧
      env.timestamp ≤ s.lifecycle.pendingClose.challengeDeadline ∧
      isNewer intent s.lifecycle.pendingClose = true ∧
      horizon = s.lifecycle.closeChallengeHorizon ∨
    s.lifecycle.pendingClose.active = false ∧ s.lifecycle.channelStatus = .closePending ∧
      horizon = (env.timestamp + 2 * cfg.challengePeriod) % 2 ^ 64
  deadline_eq : deadlineAt cfg horizon env.timestamp = .ok deadline
  manager_eq : s' = withPending
    { toCloseIntent := intent, active := true, challengeDeadline := deadline % 2 ^ 64
      closeIntentDigest := computeCloseIntentDigest cfg intent } horizon s

variable {intent : CloseIntent}

omit [Keccak] in
theorem storePendingClose_ok {digest : Bytes32}
    (h : storePendingClose cfg env intent digest s = .ok s') :
    ∃ deadline, deadlineAt cfg s.lifecycle.closeChallengeHorizon env.timestamp = .ok deadline ∧
      s' = withPending
        { toCloseIntent := intent, active := true, challengeDeadline := deadline % 2 ^ 64
          closeIntentDigest := digest } s.lifecycle.closeChallengeHorizon s := by
  simp [storePendingClose] at h
  obtain ⟨deadline, clock, rfl⟩ := h
  exact ⟨deadline, clock, rfl⟩

theorem submitCloseIntent_ok {compactProof : Bytes}
    (h : submitCloseIntent cfg sat env world intent compactProof s x = .ok s') :
    ∃ horizon deadline, Submits cfg env intent horizon deadline s s' := by
  simp [submitCloseIntent] at h
  obtain ⟨-, unclosed, -, -, rest⟩ := h
  rcases rest with ⟨pending, replacing, stored⟩ | ⟨idle, s₁, opened, stored⟩
  · simp only [checkReplacement, bind_ok, exists_unit, revertIf_ok] at replacing
    obtain ⟨window, -, -, newer⟩ := replacing
    obtain ⟨deadline, clock, rfl⟩ := storePendingClose_ok stored
    refine ⟨_, deadline, .inl ⟨pending, ?_, ?_, rfl⟩, clock, rfl⟩
    · exact le_of_not_gt window
    · simpa using newer
  · simp only [openEra, bind_ok, exists_unit, revertIf_ok, add_ok_iff,
      pure_ok] at opened
    obtain ⟨started, -, -, _, ⟨-, rfl⟩, rfl⟩ := opened
    obtain ⟨deadline, clock, rfl⟩ := storePendingClose_ok stored
    refine ⟨_, deadline, .inr ⟨by simpa using idle, ?_, rfl⟩, clock, rfl⟩
    cases status : s.lifecycle.channelStatus with
    | active => exact absurd status started
    | closePending => rfl
    | closed => exact absurd status unclosed

end

/-- The manager once its close is cancelled. -/
def cancelled (revivedStateVersion : Nat) (s : Manager) : Manager :=
  { s with
    lifecycle :=
      { s.lifecycle with
        highestCancelledRevivedStateVersion := revivedStateVersion
        pendingClose := {}
        channelStatus := .active
        closeRequestedAt := 0
        closeChallengeHorizon := 0
        currentCloseFreezeNonce := s.lifecycle.currentCloseFreezeNonce - 1 } }

structure Cancels (cfg : Config) (sat : Satellite ε) (env : Env) (revivedStateVersion : Nat)
    (s s' : Manager) (x x' : ε) : Prop where
  active : s.lifecycle.pendingClose.active = true
  called : sat.unfreezeFromManager (cfg.calling env) cfg.channelId
    s.lifecycle.closeRequestGeneration x = .ok x'
  manager_eq : s' = cancelled revivedStateVersion s

variable {compactProof : Bytes} {tokenIndex : TokenIndex}

theorem cancelClose_ok {request : CancelCloseRequest}
    (h : cancelClose cfg sat env world request compactProof s x = .ok (s', x')) :
    Cancels cfg sat env request.revivedStateVersion s s' x x' := by
  simp only [cancelClose, bind_ok, exists_unit, revertIf_ok, getOrRevert_ok,
    sub_ok_iff, pure_ok] at h
  obtain ⟨-, active, -, -, -, -, -, -, x₁, called, _, ⟨-, rfl⟩, same⟩ := h
  cases same
  exact ⟨by simpa using active, called, rfl⟩

structure Finalizes (env : Env) (digest : Bytes32) (funds : TokenIndex → Nat) (s s' : Manager) :
    Prop where
  active : s.lifecycle.pendingClose.active = true
  late : s.lifecycle.pendingClose.challengeDeadline < env.timestamp
  added : addFunds s.lifecycle.pendingClose.toCloseIntent
    (activeSlots s.lifecycle.pendingClose.tokenCount) s.accounts.finalizedChannelFundAmount =
      .ok funds
  manager_eq : s' = { s with
    finalized := finalizedOf s.lifecycle.pendingClose digest s.finalized
    accounts := { s.accounts with finalizedChannelFundAmount := funds }
    lifecycle := { s.lifecycle with
      channelStatus := .closed, closeRequestedAt := 0, closeChallengeHorizon := 0
      pendingClose := {} } }

theorem finalizeClose_ok (h : finalizeClose env world s = .ok s') :
    ∃ digest funds, Finalizes env digest funds s s' := by
  simp only [finalizeClose, bind_ok, exists_unit, revertIf_ok, getOrRevert_ok, pure_ok] at h
  obtain ⟨active, late, -, funds, added, digest, -, rfl⟩ := h
  exact ⟨digest, funds,
    { active := by simpa using active, late := lt_of_not_ge late, added, manager_eq := rfl }⟩

theorem finalizeCloseGuarded_ok {expectedDigest : Bytes32} {expectedGeneration : Nat}
    (h : finalizeCloseGuarded cfg env world expectedDigest expectedGeneration s = .ok s') :
    s.lifecycle.closeRequestGeneration = expectedGeneration ∧
    ∃ digest funds, Finalizes env digest funds s s' := by
  simp only [finalizeCloseGuarded, bind_ok, exists_unit, revertIf_ok] at h
  obtain ⟨-, -, named, finalized⟩ := h
  refine ⟨?_, finalizeClose_ok finalized⟩
  by_contra other
  exact named (.inr other)

/-! ## The accounts -/

/-- The accounts with one more payout. -/
def Accounts.accrue (a : Accounts) (nullifier : Bytes32) (payout : WithdrawalPayout) : Accounts :=
  Accounts.setCredit payout.tokenIndex payout.recipient
    (a.withdrawalCredits payout.tokenIndex payout.recipient + payout.amount)
    { a with
      totalWithdrawn := Function.update a.totalWithdrawn payout.tokenIndex
        (a.totalWithdrawn payout.tokenIndex + payout.amount)
      usedWithdrawalNullifiers := Function.update a.usedWithdrawalNullifiers nullifier true
      withdrawalPayouts := Function.update a.withdrawalPayouts nullifier payout }

/-- The accounts with `late` more of a token's late cap, and other shared nullifiers. -/
def Accounts.extend (a : Accounts) (tokenIndex : TokenIndex) (late : Nat)
    (shared : Bytes32 → Bool) :
    Accounts :=
  { a with
    lateIncomingFundAmount := Function.update a.lateIncomingFundAmount tokenIndex
      (a.lateIncomingFundAmount tokenIndex + late)
    usedSharedNativeNullifiers := shared }

theorem Accounts.extend_shared (a : Accounts) (tokenIndex : TokenIndex)
    (shared : Bytes32 → Bool) :
    { a with usedSharedNativeNullifiers := shared } = a.extend tokenIndex 0 shared := by
  simp [extend]

/-- A completed accrual of `payout` under `nullifier`, with `late` more of its token's cap. -/
structure Accrues (nullifier : Bytes32) (payout : WithdrawalPayout) (late : Nat) (a a' : Accounts) :
    Prop where
  fresh : a.usedWithdrawalNullifiers nullifier = false
  fits : a.totalWithdrawn payout.tokenIndex + payout.amount < 2 ^ 256
  bounded : a.totalWithdrawn payout.tokenIndex + payout.amount ≤ a.cap payout.tokenIndex + late
  accounts_eq : ∃ shared, a' = (a.extend payout.tokenIndex late shared).accrue nullifier payout

theorem accrueWithdrawal_ok {late : Nat} {shared : Bytes32 → Bool} {a a' : Accounts}
    (h : accrueWithdrawal tokenIndex amount recipient nullifier (a.extend tokenIndex late shared) =
      .ok a') : Accrues nullifier { recipient, tokenIndex, amount } late a a' := by
  simp only [accrueWithdrawal, bind_ok, exists_unit, revertIf_ok, add_ok_iff, pure_ok] at h
  obtain ⟨fresh, _, ⟨fits, rfl⟩, _, ⟨-, rfl⟩, bounded, _, ⟨-, rfl⟩, rfl⟩ := h
  refine ⟨by simpa [extend] using fresh, fits, ?_, shared, rfl⟩
  simp [extend] at bounded
  simp only [cap]
  omega

theorem submitWithdrawalClaim_ok {claim : WithdrawalClaim}
    (h : submitWithdrawalClaim cfg env world claim compactProof s = .ok s') :
    s.lifecycle.channelStatus = .closed ∧ ∃ payout a,
      Accrues claim.withdrawalNullifier payout 0 s.accounts a ∧
      s' = { s with accounts := a } := by
  simp only [submitWithdrawalClaim, bind_ok, exists_unit, revertIf_ok,
    getOrRevert_ok, pure_ok, not_not] at h
  obtain ⟨-, closed, -, -, _, -, -, -, _, -, -, a, accrued, rfl⟩ := h
  rw [show s.accounts = s.accounts.extend claim.tokenIndex 0 s.accounts.usedSharedNativeNullifiers
    from s.accounts.extend_shared _ _] at accrued
  exact ⟨closed, _, a, accrueWithdrawal_ok accrued, rfl⟩

theorem submitPostCloseClaim_ok [Keccak] {claim : PostCloseClaim}
    (h : submitPostCloseClaim cfg env world claim compactProof s = .ok s') :
    s.lifecycle.channelStatus = .closed ∧ ∃ payout a,
      Accrues (deriveSharedNativeNullifier claim.closeIntentDigest claim.incomingTxHash
        claim.receiverPkG) payout 0 s.accounts a ∧ s' = { s with accounts := a } := by
  simp only [submitPostCloseClaim, bind_ok, exists_unit, revertIf_ok,
    getOrRevert_ok, pure_ok, not_not] at h
  obtain ⟨-, closed, -, _, -, -, -, _, -, -, a, accrued, rfl⟩ := h
  rw [extend_shared s.accounts claim.tokenIndex] at accrued
  exact ⟨closed, _, a, accrueWithdrawal_ok accrued, rfl⟩

theorem creditLateIncoming_ok {claimKey : Bytes32}
    (h : creditLateIncoming cfg env tokenIndex amount recipient claimKey s = .ok s') :
    env.sender = cfg.closeFundingMaterializer ∧ s.lifecycle.channelStatus = .closed ∧ ∃ a,
      Accrues claimKey { recipient, tokenIndex, amount } amount s.accounts a ∧
      s' = { s with accounts := a } := by
  simp only [creditLateIncoming, bind_ok, exists_unit, revertIf_ok, add_ok_iff,
    pure_ok, not_not] at h
  obtain ⟨-, sender, closed, _, ⟨-, rfl⟩, a, accrued, rfl⟩ := h
  have extended : accrueWithdrawal tokenIndex amount recipient claimKey
      (s.accounts.extend tokenIndex amount s.accounts.usedSharedNativeNullifiers) = .ok a := accrued
  exact ⟨sender, closed, a, accrueWithdrawal_ok extended, rfl⟩

/-- A pull that has reached its call of the rollup. -/
structure Pulls (tokenIndex : TokenIndex) (token : Address) (balBefore : Nat) (s s' : Manager) :
    Prop where
  closed : s.lifecycle.channelStatus = .closed
  missing : s.accounts.receivedChannelFunds tokenIndex < s.accounts.cap tokenIndex
  manager_eq : s' = { s with
    status := some (.pull tokenIndex token (s.accounts.cap tokenIndex)
      (s.accounts.cap tokenIndex - s.accounts.receivedChannelFunds tokenIndex) balBefore) }

theorem pullChannelTokenFunds_ok
    (h : pullChannelTokenFunds cfg sat env world tokenIndex s x = .ok s') :
    ∃ token balBefore, Pulls tokenIndex token balBefore s s' := by
  simp only [pullChannelTokenFunds, nonReentrant, bind_ok, exists_unit, revertIf_ok, add_ok_iff,
    pure_ok, not_not] at h
  obtain ⟨-, -, closed, token, -, _, ⟨-, rfl⟩, missing, -, balBefore, -, rfl⟩ := h
  exact ⟨token, balBefore, closed, lt_of_not_ge missing, rfl⟩

/-- A frame that has nothing left to book. -/
def Frame.isPayout : Frame → Bool
  | .pull .. => false
  | .nativePayout => true
  | .tokenPayout .. => true

/-- A payout that has reached its transfer. -/
structure Pays (nullifier : Bytes32) (payout : WithdrawalPayout) (s s' : Manager) : Prop where
  positive : 0 < payout.amount
  funded : s.accounts.totalCreditedOut payout.tokenIndex + payout.amount ≤
    s.accounts.receivedChannelFunds payout.tokenIndex
  manager_eq : ∃ frame : Frame, frame.isPayout = true ∧
    s' = { s with accounts := s.accounts.pay nullifier payout, status := some frame }

theorem claimWithdrawalCredit_ok (h : claimWithdrawalCredit cfg env world nullifier s = .ok s') :
    Pays nullifier (s.accounts.withdrawalPayouts nullifier) s s' := by
  simp only [claimWithdrawalCredit, nonReentrant, bind_ok, exists_unit, revertIf_ok, add_ok_iff,
    getOrRevert_ok, ite_ok, pure_ok] at h
  obtain ⟨-, -, positive, -, -, _, ⟨-, rfl⟩, funded, token, -, rest⟩ := h
  refine ⟨pos_of_ne_zero positive, le_of_not_gt funded, ?_⟩
  cases rest with
  | inl native =>
    obtain ⟨-, rfl⟩ := native
    exact ⟨.nativePayout, rfl, rfl⟩
  | inr transferred =>
    obtain ⟨-, balanceBefore, -, rfl⟩ := transferred
    exact ⟨_, rfl, rfl⟩

/-- The manager once a pull of `cap` in all is booked. -/
def pulled (tokenIndex : TokenIndex) (cap : Nat) (s : Manager) : Manager :=
  { s with
    accounts :=
      { s.accounts with
        receivedChannelFunds := Function.update s.accounts.receivedChannelFunds tokenIndex cap }
    status := none }

theorem resume_ok (h : resume cfg world s = .ok s') :
    (∃ t token cap expected balBefore,
      s.status = some (.pull t token cap expected balBefore) ∧ s' = pulled t cap s) ∨
    (∃ frame : Frame, frame.isPayout = true ∧ s.status = some frame ∧
      s' = { s with status := none }) := by
  simp [resume] at h
  obtain ⟨-, rest⟩ := h
  split at rest
  · cases rest
  · rename_i t token cap expected balBefore suspended
    simp [finishPull] at rest
    obtain ⟨_, -, _, -, -, rfl⟩ := rest
    exact .inl ⟨t, token, cap, expected, balBefore, suspended, rfl⟩
  · rename_i suspended
    cases rest
    exact .inr ⟨_, rfl, suspended, rfl⟩
  · rename_i suspended
    simp [finishTokenPayout] at rest
    obtain ⟨_, -, _, -, -, rfl⟩ := rest
    exact .inr ⟨_, rfl, suspended, rfl⟩

/-! ## One step -/

/-- The era a close request names. -/
def Call.era : Call → Option (Nat × Nat)
  | .requestClose nonce highest => some (nonce, highest)
  | .requestCloseAsParticipant _ _ _ nonce highest => some (nonce, highest)
  | _ => none

/-- The payout a call pays. -/
def Call.paid : Call → Option Bytes32
  | .claimWithdrawalCredit nullifier => some nullifier
  | _ => none

variable [Keccak]

/-- The nullifier a call accrues a payout under. -/
def Call.accrued : Call → Option Bytes32
  | .submitWithdrawalClaim claim _ => some claim.withdrawalNullifier
  | .submitPostCloseClaim claim _ => some (deriveSharedNativeNullifier claim.closeIntentDigest
      claim.incomingTxHash claim.receiverPkG)
  | .creditLateIncoming _ _ _ claimKey => some claimKey
  | _ => none

/-- What a completed call did to the manager and its satellite. -/
inductive Effect (cfg : Config) (sat : Satellite ε) (env : Env) :
    Call → Manager → Manager → ε → ε → Prop
  | request {call : Call} {nonce highest : Nat} {s s' : Manager} {x x' : ε}
      (named : call.era = some (nonce, highest)) (unaccrued : call.accrued = none)
      (unpaid : call.paid = none) (requests : Requests cfg sat env s s' x x') :
      Effect cfg sat env call s s' x x'
  | submit {intent : CloseIntent} {compactProof : Bytes} {horizon deadline : Nat} {s s' : Manager}
      {x : ε} (submits : Submits cfg env intent horizon deadline s s') :
      Effect cfg sat env (.submitCloseIntent intent compactProof) s s' x x
  | cancel {request : CancelCloseRequest} {compactProof : Bytes} {s s' : Manager} {x x' : ε}
      (cancels : Cancels cfg sat env request.revivedStateVersion s s' x x') :
      Effect cfg sat env (.cancelClose request compactProof) s s' x x'
  | finalize {expected digest : Bytes32} {generation : Nat} {funds : TokenIndex → Nat}
      {s s' : Manager} {x : ε} (current : s.lifecycle.closeRequestGeneration = generation)
      (finalizes : Finalizes env digest funds s s') :
      Effect cfg sat env (.finalizeCloseGuarded expected generation) s s' x x
  | accrue {call : Call} {nullifier : Bytes32} {payout : WithdrawalPayout} {late : Nat}
      {a : Accounts} {s : Manager} {x : ε} (named : call.accrued = some nullifier)
      (unrequested : call.era = none) (unpaid : call.paid = none)
      (source : late = 0 ∨ env.sender = cfg.closeFundingMaterializer)
      (closed : s.lifecycle.channelStatus = .closed)
      (accrues : Accrues nullifier payout late s.accounts a) :
      Effect cfg sat env call s { s with accounts := a } x x
  | pull {tokenIndex : TokenIndex} {token : Address} {balBefore : Nat} {s s' : Manager} {x : ε}
      (pulls : Pulls tokenIndex token balBefore s s') :
      Effect cfg sat env (.pullChannelTokenFunds tokenIndex) s s' x x
  | pay {nullifier : Bytes32} {s s' : Manager} {x : ε}
      (pays : Pays nullifier (s.accounts.withdrawalPayouts nullifier) s s') :
      Effect cfg sat env (.claimWithdrawalCredit nullifier) s s' x x
  | pulled {tokenIndex : TokenIndex} {token : Address} {cap expected balBefore : Nat} {s : Manager}
      {x : ε} (suspended : s.status = some (.pull tokenIndex token cap expected balBefore)) :
      Effect cfg sat env .resume s (Settlement.pulled tokenIndex cap s) x x
  | paid {frame : Frame} {s : Manager} {x : ε} (payout : frame.isPayout = true)
      (suspended : s.status = some frame) :
      Effect cfg sat env .resume s { s with status := none } x x

omit [Keccak] in
theorem quiet_ok {ran : Except Revert Manager} (h : quiet x ran = .ok (s', x')) :
    ran = .ok s' ∧ x' = x := by
  simp only [quiet, bind_ok, pure_ok, Prod.mk.injEq] at h
  obtain ⟨_, completed, rfl, rfl⟩ := h
  exact ⟨completed, rfl⟩

theorem dispatch_effect (h : dispatch cfg sat env world call s x = .ok (s', x')) :
    Effect cfg sat env call s s' x x' := by
  cases call with
  | requestClose nonce highest =>
    simp [dispatch, requestClose] at h
    exact .request rfl rfl rfl (beginClose_requests h.2.2.2)
  | requestCloseAsParticipant slot pkG siblings nonce highest =>
    simp [dispatch, requestCloseAsParticipant] at h
    exact .request rfl rfl rfl (beginClose_requests h.2.2.2)
  | submitCloseIntent intent compactProof =>
    obtain ⟨completed, rfl⟩ := quiet_ok h
    obtain ⟨horizon, deadline, submits⟩ := submitCloseIntent_ok completed
    exact .submit submits
  | cancelClose request compactProof => exact .cancel (cancelClose_ok h)
  | finalizeCloseGuarded digest generation =>
    obtain ⟨completed, rfl⟩ := quiet_ok h
    obtain ⟨current, _, _, finalizes⟩ := finalizeCloseGuarded_ok completed
    exact .finalize current finalizes
  | submitWithdrawalClaim claim compactProof =>
    obtain ⟨completed, rfl⟩ := quiet_ok h
    obtain ⟨closed, payout, a, accrues, rfl⟩ := submitWithdrawalClaim_ok completed
    exact .accrue rfl rfl rfl (.inl rfl) closed accrues
  | submitPostCloseClaim claim compactProof =>
    obtain ⟨completed, rfl⟩ := quiet_ok h
    obtain ⟨closed, payout, a, accrues, rfl⟩ := submitPostCloseClaim_ok completed
    exact .accrue rfl rfl rfl (.inl rfl) closed accrues
  | creditLateIncoming tokenIndex amount recipient claimKey =>
    obtain ⟨completed, rfl⟩ := quiet_ok h
    obtain ⟨sender, closed, a, accrues, rfl⟩ := creditLateIncoming_ok completed
    exact .accrue rfl rfl rfl (.inr sender) closed accrues
  | pullChannelTokenFunds tokenIndex =>
    obtain ⟨completed, rfl⟩ := quiet_ok h
    obtain ⟨token, balBefore, pulls⟩ := pullChannelTokenFunds_ok completed
    exact .pull pulls
  | claimWithdrawalCredit nullifier =>
    obtain ⟨completed, rfl⟩ := quiet_ok h
    exact .pay (claimWithdrawalCredit_ok completed)
  | resume =>
    obtain ⟨completed, rfl⟩ := quiet_ok h
    cases resume_ok completed with
    | inl pulled =>
      obtain ⟨_, _, _, _, _, suspended, rfl⟩ := pulled
      exact .pulled suspended
    | inr paid =>
      obtain ⟨frame, payout, suspended, rfl⟩ := paid
      exact .paid payout suspended

theorem exec_effect (h : exec cfg sat env world call s x = .ok (s', x')) :
    Effect cfg sat env call s s' x x' := by
  simp [exec] at h
  exact dispatch_effect h.2

theorem Step.effect {e : Event} (step : Step cfg s e s') :
    ∃ (ε : Type) (sat : Satellite ε) (x x' : ε), Effect cfg sat e.env e.call s s' x x' := by
  obtain ⟨ε, sat, world, x, x', completed⟩ := step
  exact ⟨ε, sat, x, x', exec_effect completed⟩

end Intmax.Settlement
