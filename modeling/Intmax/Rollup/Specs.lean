import Intmax.Rollup.System

/-! # One inversion per entry point

What a completed call checked and the state it left.  Later modules cite these
lemmas and never unfold an entry point.
-/

namespace Intmax.Rollup

open Checked Function Intake

variable {cfg : Config} {env : Env} {world : External} {s s' : Rollup}

/-! ## Roles -/

variable {tokenIndex : TokenIndex} {token recipient : Address} {amount : Nat}
  {args : RegisterChannelArgs}

theorem registerToken_ok (h : registerToken cfg env world tokenIndex token s = .ok s') :
    env.value = 0 ∧ s.roles.tokenAddressOf tokenIndex = 0 ∧
    s' = { s with roles := { s.roles with
      tokenAddressOf := update s.roles.tokenAddressOf tokenIndex token
      registeredTokenCount := s.roles.registeredTokenCount + 1 } } := by
  simp [registerToken, nonPayable, requireDeployer] at h
  obtain ⟨value, -, -, -, unset, -, -, rfl⟩ := h
  exact ⟨value, unset, rfl⟩

theorem setBlockProducer_ok {producer : Address} {allowed : Bool}
    (h : setBlockProducer cfg env producer allowed s = .ok s') :
    env.value = 0 ∧ s' = { s with roles := { s.roles with
      isBlockProducer := update s.roles.isBlockProducer producer allowed } } := by
  simp [setBlockProducer, nonPayable] at h
  obtain ⟨value, -, rfl⟩ := h
  exact ⟨value, rfl⟩

theorem setBlockProducerAdmin_ok {admin : Address}
    (h : setBlockProducerAdmin cfg env admin s = .ok s') :
    env.value = 0 ∧ s' = { s with roles := { s.roles with blockProducerAdmin := admin } } := by
  simp [setBlockProducerAdmin, nonPayable, requireDeployer] at h
  obtain ⟨value, -, rfl⟩ := h
  exact ⟨value, rfl⟩

theorem setKzgVerifier_ok {v : Address} (h : setKzgVerifier cfg env world v s = .ok s') :
    env.value = 0 ∧ s' = { s with roles := { s.roles with kzgVerifier := v } } := by
  simp [setKzgVerifier, nonPayable, requireDeployer] at h
  obtain ⟨value, -, -, -, rfl⟩ := h
  exact ⟨value, rfl⟩

/-- The satellite address after an accepted offer, the rest of the state kept. -/
theorem installMaterializer_ok {materializer : Address}
    (h : installMaterializer materializer s = .ok s') :
    s' = { s with roles := { s.roles with channelExitMaterializer := materializer } } ∧
    (s.roles.channelExitMaterializer = 0 ∧ s.vault.totalEscrowed = 0 ∧
        s.roles.registeredTokenCount = 0 ∨
      s.roles.channelExitMaterializer = materializer) := by
  simp [installMaterializer] at h
  rcases h with ⟨unset, ⟨escrow, tokens⟩, rfl⟩ | ⟨-, rfl, rfl⟩
  · exact ⟨rfl, .inl ⟨unset, escrow, tokens⟩⟩
  · exact ⟨rfl, .inr rfl⟩

theorem creditNativeEscrow_ok {v v' : Vault} (h : creditNativeEscrow recipient amount v = .ok v') :
    amount ≤ v.totalEscrowed ∧
    v' = { v with
      totalEscrowed := v.totalEscrowed - amount
      pendingWithdrawals := update v.pendingWithdrawals recipient
        (v.pendingWithdrawals recipient + amount) } := by
  simp [creditNativeEscrow, creditPending] at h
  obtain ⟨enough, -, rfl⟩ := h
  exact ⟨enough, rfl⟩

theorem creditTokenEscrow_ok {v v' : Vault}
    (h : creditTokenEscrow tokenIndex recipient amount v = .ok v') :
    amount ≤ v.escrowedByToken tokenIndex ∧
    v' = Vault.setTokenCredit tokenIndex recipient
      (v.pendingTokenWithdrawals tokenIndex recipient + amount)
      { v with
        escrowedByToken := update v.escrowedByToken tokenIndex
          (v.escrowedByToken tokenIndex - amount) } := by
  simp [creditTokenEscrow] at h
  obtain ⟨enough, -, rfl⟩ := h
  exact ⟨enough, rfl⟩

/-- A credit moves escrow of one asset to one recipient. -/
theorem creditChannelExit_ok {manager : Address}
    (h : creditChannelExit cfg env manager tokenIndex amount s = .ok s') :
    env.value = 0 ∧ ∃ vault, s' = { s with vault } ∧
      (tokenIndex = 0 ∧ creditNativeEscrow manager amount s.vault = .ok vault ∨
        tokenIndex ≠ 0 ∧ creditTokenEscrow tokenIndex manager amount s.vault = .ok vault) := by
  simp [creditChannelExit, nonPayable] at h
  obtain ⟨value, -, -, ⟨zero, vault, credited, rfl⟩ | ⟨nonzero, vault, credited,
    rfl⟩⟩ := h
  · exact ⟨value, vault, rfl, .inl ⟨zero, credited⟩⟩
  · exact ⟨value, vault, rfl, .inr ⟨nonzero, credited⟩⟩

/-! ## Binding a manager -/

section
variable {σ : Type} {sat : Satellite σ} {j j' : σ}

theorem registerSettlementManager_ok {manager : Address}
    (h : registerSettlementManager cfg sat env world manager s j = .ok (s', j')) :
    env.value = 0 ∧ s'.chain = s.chain ∧ s'.intake = s.intake ∧ s'.vault = s.vault ∧
    s'.roles.status = s.roles.status ∧ s'.roles.tokenAddressOf = s.roles.tokenAddressOf ∧
    (s'.roles.channelExitMaterializer = s.roles.channelExitMaterializer ∧ j' = j ∨
      ∃ materializer, materializer ≠ 0 ∧
        world.closeFundingMaterializer manager = some materializer ∧
        s'.roles.channelExitMaterializer = materializer ∧
        (s.roles.channelExitMaterializer = 0 ∧ s.vault.totalEscrowed = 0 ∧
            s.roles.registeredTokenCount = 0 ∨
          s.roles.channelExitMaterializer = materializer) ∧
        sat.bindManager materializer s' manager j = .ok j') := by
  simp only [registerSettlementManager, nonPayable, requireDeployer, bind_ok, revertIf_ok,
    exists_unit, ite_ok, pure_ok] at h
  obtain ⟨value, -, ⟨-, same⟩ | ⟨offered, -, installed, install, j₁, bound, same⟩⟩ :=
    h
  · cases same
    exact ⟨not_not.mp value, rfl, rfl, rfl, rfl, rfl, .inl ⟨rfl, rfl⟩⟩
  · cases same
    obtain ⟨rfl, allowed⟩ := installMaterializer_ok install
    refine ⟨not_not.mp value, rfl, rfl, rfl, rfl, rfl,
      .inr ⟨_, offered, ?_, rfl, allowed, bound⟩⟩
    cases answer : world.closeFundingMaterializer manager with
    | none => simp [answer] at offered
    | some a => simp

end

/-! ## Payouts of ETH -/

theorem withdraw_ok (h : withdraw cfg env amount s = .ok s') :
    env.value = 0 ∧ amount ≤ s.vault.pendingWithdrawals env.sender ∧
    amount ≤ s.vault.balance ∧
    s' = enter .payout { s with vault := { s.vault with
      balance := s.vault.balance - amount
      pendingWithdrawals := update s.vault.pendingWithdrawals env.sender
        (s.vault.pendingWithdrawals env.sender - amount) } } := by
  simp [withdraw, nonPayable, sendValue] at h
  obtain ⟨value, -, -, ⟨-, enough⟩, held, rfl⟩ := h
  exact ⟨value, enough, held, rfl⟩

theorem depositBond_ok (h : depositBond cfg env s = .ok s') :
    s' = { s with vault := { s.vault with
      bonds := update s.vault.bonds env.sender
        { s.vault.bonds env.sender with
          balance := (s.vault.bonds env.sender).balance + env.value } } } := by
  simp [depositBond, requireReleaseRuntime, nonReentrant] at h
  obtain ⟨-, -, -, -, rfl⟩ := h
  rfl

theorem withdrawBond_ok (h : withdrawBond cfg env amount s = .ok s') :
    env.value = 0 ∧
    ((s.vault.bonds env.sender).released < (s.vault.bonds env.sender).posted →
      cfg.baseStake + ((s.vault.bonds env.sender).posted - (s.vault.bonds env.sender).released) *
        cfg.postStake + amount ≤ (s.vault.bonds env.sender).balance) ∧
    amount ≤ (s.vault.bonds env.sender).balance ∧ amount ≤ s.vault.balance ∧
    s' = enter .payout { s with vault := { s.vault with
      balance := s.vault.balance - amount
      bonds := update s.vault.bonds env.sender
        { s.vault.bonds env.sender with
          balance := (s.vault.bonds env.sender).balance - amount } } } := by
  simp [withdrawBond, nonPayable, sendValue, lockedStake] at h
  obtain ⟨value, -, -, counted, locked, stake, ⟨-, enough, kept⟩, held, rfl⟩ := h
  refine ⟨value, ?_, enough, held, rfl⟩
  intro unfinalized
  rcases stake with ⟨none_, -⟩ | ⟨-, -, -, rfl⟩
  · omega
  · omega

theorem releaseBond_ok {producer : Address} {submissionId : Nat}
    (h : releaseBond env producer submissionId s = .ok s') :
    env.value = 0 ∧ producer ≠ 0 ∧ (s.chain.submissions submissionId).submitter = producer ∧
    (s.chain.batchMetadata submissionId).endBlockNumber ≤ s.chain.latestFinalizedBlockNumber ∧
    s' = { s with
      vault := raiseReleased producer (s.chain.submissions submissionId).postIndex s.vault } := by
  simp [releaseBond, nonPayable] at h
  obtain ⟨value, ⟨nonzero, submitter, final⟩, rfl⟩ := h
  exact ⟨value, nonzero, submitter, final, rfl⟩

/-! ## Tokens -/

theorem withdrawToken_ok (h : withdrawToken cfg env world tokenIndex amount s = .ok s') :
    env.value = 0 ∧ s.roles.tokenAddressOf tokenIndex ≠ 0 ∧
    amount ≤ s.vault.pendingTokenWithdrawals tokenIndex env.sender ∧
    ∃ balanceBefore,
      s' = enter (.tokenPayout (s.roles.tokenAddressOf tokenIndex) env.sender amount balanceBefore)
        { s with
          vault := s.vault.setTokenCredit tokenIndex env.sender
            (s.vault.pendingTokenWithdrawals tokenIndex env.sender - amount) } := by
  simp [withdrawToken, nonPayable] at h
  obtain ⟨value, -, -, registered, ⟨-, enough⟩, balanceBefore, -, rfl⟩ := h
  exact ⟨value, registered, enough, balanceBefore, rfl⟩

theorem finishTokenPayout_ok {balanceBefore : Nat}
    (h : finishTokenPayout world token recipient amount balanceBefore s = .ok s') :
    s' = leave s := by
  simp [finishTokenPayout] at h
  obtain ⟨balanceAfter, -, -, -, rfl⟩ := h
  rfl

/-! ## Intake -/

variable [Keccak]

theorem Intake.recordDeposit_ok {record : DepositRecord} {i i' : Intake}
    (h : i.recordDeposit record = .ok i') :
    i.depositCount + 1 < 2 ^ 64 ∧
    i' = recordPendingChainsCheckpoint { i with
      depositCount := i.depositCount + 1
      pendingDepositHashChain := computeDepositHash i.pendingDepositHashChain record
      depositRecords := update i.depositRecords i.depositCount record } := by
  simp only [recordDeposit, bind_ok, add_ok_iff, pure_ok] at h
  obtain ⟨_, ⟨bound, rfl⟩, rfl⟩ := h
  exact ⟨bound, rfl⟩

/-- The record a deposit call asks for. -/
def DepositArgs.record (args : DepositArgs) (depositor : Address) : DepositRecord :=
  { depositor, recipient := args.recipient, tokenIndex := args.tokenIndex,
    amount := args.amount, auxData := args.auxData }

/-- An ETH deposit completes at once; a token deposit waits for the transfer. -/
theorem deposit_ok {args : DepositArgs} (h : deposit cfg env world args s = .ok s') :
    args.tokenIndex = 0 ∧ env.value = args.amount.toNat ∧
      (∃ intake, s.intake.recordDeposit (args.record env.sender) = .ok intake ∧
        s' = { s with intake, vault := { s.vault with
          totalEscrowed := s.vault.totalEscrowed + args.amount.toNat } }) ∨
    args.tokenIndex ≠ 0 ∧ env.value = 0 ∧ s.roles.tokenAddressOf args.tokenIndex ≠ 0 ∧
      ∃ balBefore,
        world.tokenBalanceOf (s.roles.tokenAddressOf args.tokenIndex) cfg.self = some balBefore ∧
        s' = enter (.tokenDeposit (s.roles.tokenAddressOf args.tokenIndex)
          (args.record env.sender) balBefore) s := by
  simp [deposit] at h
  obtain ⟨-, -, ⟨native, value, -, intake, recorded, rfl⟩ |
    ⟨token, value, registered, balBefore, answer, rfl⟩⟩ := h
  · exact .inl ⟨native, value, intake, recorded, rfl⟩
  · exact .inr ⟨token, value, registered, balBefore, answer, rfl⟩

theorem finishTokenDeposit_ok {record : DepositRecord} {balBefore : Nat}
    (h : finishTokenDeposit cfg world token record balBefore s = .ok s') :
    ∃ intake, s.intake.recordDeposit record = .ok intake ∧
      s' = leave { s with intake, vault := { s.vault with
        escrowedByToken := update s.vault.escrowedByToken record.tokenIndex
          (s.vault.escrowedByToken record.tokenIndex + record.amount.toNat) } } := by
  simp [finishTokenDeposit] at h
  obtain ⟨balAfter, -, -, -, -, intake, recorded, rfl⟩ := h
  exact ⟨intake, recorded, rfl⟩

theorem Intake.recordRegistration_ok {reg : ChannelRegistration} {i i' : Intake}
    (h : i.recordRegistration reg = .ok i') :
    i.channelRegCount + 1 < 2 ^ 64 ∧
    i' = recordPendingChainsCheckpoint { i with
      pendingChannelRegHashChain := channelRegHash i.pendingChannelRegHashChain reg
      channelMemberSetCommitment := update i.channelMemberSetCommitment reg.channelId
        (closeMemberSetCommitment (reg.members.map (·.pkG)))
      channelBpMemberSlot := update i.channelBpMemberSlot reg.channelId
        reg.bpMemberSlot.toNat
      channelBpPkG := update i.channelBpPkG reg.channelId
        ((reg.members.map (·.pkG)).getD reg.bpMemberSlot.toNat 0)
      channelRegCount := i.channelRegCount + 1 } := by
  simp only [recordRegistration, bind_ok, add_ok_iff, pure_ok] at h
  obtain ⟨_, ⟨bound, rfl⟩, rfl⟩ := h
  exact ⟨bound, rfl⟩

omit [Keccak] in
theorem lengthsInvalid_eq_false_iff :
    args.lengthsInvalid = false ↔ minChannelMembers ≤ args.memberPkGs.length ∧
      args.memberPkGs.length ≤ maxChannelMembers ∧ args.pkBs.length = args.memberPkGs.length ∧
      args.regevPkDigests.length = args.memberPkGs.length ∧
      args.recipients.length = args.memberPkGs.length := by
  simp [RegisterChannelArgs.lengthsInvalid, and_assoc]

/-- All that `registerChannel` asks for, and what it writes. -/
theorem registerChannel_ok_iff :
    registerChannel cfg env args s = .ok s' ↔
    env.value = 0 ∧ env.sender = cfg.deployer ∧ args.channelId ≠ 0 ∧
    args.channelId ≠ burnChannelId ∧ args.delegateCount = 0 ∧
    s.intake.channelMemberSetCommitment args.channelId = 0 ∧ args.lengthsInvalid = false ∧
    args.bpMemberSlot.toNat < args.memberPkGs.length ∧ checkMembers args.members = .ok () ∧
    ∃ intake, s.intake.recordRegistration args.registration = .ok intake ∧
      s' = { s with intake } := by
  simp [registerChannel, nonPayable, requireDeployer, @eq_comm _ s']

theorem registerChannel_ok (h : registerChannel cfg env args s = .ok s') :
    env.value = 0 ∧ args.channelId ≠ 0 ∧
    s.intake.channelMemberSetCommitment args.channelId = 0 ∧
    args.memberPkGs.length ≤ maxChannelMembers ∧
    ∃ intake, s.intake.recordRegistration args.registration = .ok intake ∧
      s' = { s with intake } := by
  obtain ⟨value, -, nonzero, -, -, unregistered, lengths, -, -, recorded⟩ :=
    registerChannel_ok_iff.mp h
  exact ⟨value, nonzero, unregistered, (lengthsInvalid_eq_false_iff.mp lengths).2.1, recorded⟩

/-! ## Finalization and fraud -/

theorem fullVerify_ok {stateRoot : Bytes32} {pis : ValidityPublicInputs} {proof : Bytes}
    {c : Chain} (h : fullVerify world stateRoot pis proof c = .ok ()) :
    c.latestFinalizedBlockNumber ≤ pis.finalBlockNumber.toNat := by
  simp [fullVerify] at h
  exact h.1

theorem checkFinalize_ok {args : ProofArgs} {c : Chain} (h : checkFinalize world args c = .ok ()) :
    (c.submissions args.submissionId).commitment ≠ 0 ∧
    (c.submissions args.submissionId).finalized = false ∧
    args.stateRoot = (c.submissions args.submissionId).stateRoot ∧
    args.validityPIs.finalBlockNumber.toNat =
      (c.batchMetadata args.submissionId).endBlockNumber ∧
    c.latestFinalizedBlockNumber ≤ args.validityPIs.finalBlockNumber.toNat := by
  simp only [checkFinalize, bind_ok, revertIf_ok, exists_unit] at h
  obtain ⟨found, unfinalized, root, height, -, verified⟩ := h
  refine ⟨found, by simpa using unfinalized, not_not.mp root, not_not.mp height, ?_⟩
  simp only [tryFullVerify] at verified
  split at verified
  · split at verified
    · rename_i passed
      exact fullVerify_ok passed
    · cases verified
  · cases verified

/-- `finalize` either reports why it rejects and changes nothing, or marks the batch. -/
theorem finalize_ok {args : ProofArgs} {out : Outcome}
    (h : finalize env world args s = .ok (out, s')) :
    env.value = 0 ∧
    ((∃ reason, out = .rejected reason) ∧ s' = s ∨
      out = .returned true ∧ checkFinalize world args s.chain = .ok () ∧
      s' = { s with
        chain := markFinalized args s.chain
        vault := raiseReleased (s.chain.submissions args.submissionId).submitter
          (s.chain.submissions args.submissionId).postIndex s.vault }) := by
  simp only [finalize, nonPayable, bind_ok, revertIf_ok, exists_unit] at h
  obtain ⟨value, -, -, rest⟩ := h
  refine ⟨not_not.mp value, ?_⟩
  split at rest
  · rename_i reason rejected
    cases rest
    exact .inl ⟨⟨reason, rfl⟩, rfl⟩
  · rename_i accepted
    cases rest
    exact .inr ⟨rfl, accepted, rfl⟩

section
variable {σ : Type} {sat : Satellite σ} {j j' : σ}

/-- `fraudProof` either changes nothing or truncates from an unfinalized target. -/
theorem fraudProof_ok {args : ProofArgs} {out : Outcome}
    (h : fraudProof cfg sat env world args s j = .ok (out, s', j')) :
    env.value = 0 ∧
    (out = .returned false ∧ s' = s ∧ j' = j ∨
      out = .returned true ∧
      (s.chain.submissions args.submissionId).commitment ≠ 0 ∧
      s.chain.latestFinalizedBlockNumber <
        (s.chain.batchMetadata args.submissionId).startBlockNumber ∧
      ∃ forfeit, truncateSubmissions cfg sat args.submissionId env.sender forfeit s j =
        .ok (s', j')) := by
  simp only [fraudProof, nonPayable, bind_ok, revertIf_ok, exists_unit,
    ite_ok, pure_ok] at h
  obtain ⟨value, -, rest⟩ := h
  refine ⟨not_not.mp value, ?_⟩
  rcases rest with ⟨-, same⟩ | ⟨found, -, removable, decided⟩
  · cases same
    exact .inl ⟨rfl, rfl, rfl⟩
  · obtain ⟨confirmed, same | ⟨⟨s₁, j₁⟩, truncated, same⟩⟩ :
        ∃ confirmed, (Outcome.returned false, s, j) = (out, s', j') ∨
          ∃ a, truncateSubmissions cfg sat args.submissionId env.sender confirmed s j = .ok a ∧
            (Outcome.returned true, a.1, a.2) = (out, s', j') := by
      rcases decided with ⟨-, confirmed, -, tail⟩ | ⟨-, confirmed, -, tail⟩
      · exact ⟨confirmed, tail.imp And.right And.right⟩
      · exact ⟨confirmed, tail.imp And.right And.right⟩
    · cases same
      exact .inl ⟨rfl, rfl, rfl⟩
    · cases same
      exact .inr ⟨rfl, found, lt_of_not_ge removable, confirmed, truncated⟩

end

/-! ## Withdrawal proofs and returns -/

theorem withdrawNative_ok {args : WithdrawArgs} (h : withdrawNative env world args s = .ok s') :
    env.value = 0 ∧
    verifyWithdrawalSet world args.ws args.withdrawalProver args.compactProof s.chain = .ok () ∧
    ∃ vault, payLeaves payNativeLeaf args.ws s.vault = .ok vault ∧ s' = { s with vault } := by
  simp [withdrawNative, nonPayable] at h
  obtain ⟨value, -, verified, vault, paid, rfl⟩ := h
  exact ⟨value, verified, vault, paid, rfl⟩

theorem withdrawERC20_ok {args : WithdrawArgs} (h : withdrawERC20 env world args s = .ok s') :
    env.value = 0 ∧
    verifyWithdrawalSet world args.ws args.withdrawalProver args.compactProof s.chain = .ok () ∧
    ∃ vault, payLeaves (payTokenLeaf s.roles.tokenAddressOf) args.ws s.vault = .ok vault ∧
      s' = { s with vault } := by
  simp [withdrawERC20, nonPayable] at h
  obtain ⟨value, -, verified, vault, paid, rfl⟩ := h
  exact ⟨value, verified, vault, paid, rfl⟩

theorem resume_ok (h : resume cfg world s = .ok s') :
    s.roles.status = some .payout ∧ s' = leave s ∨
    (∃ token record balBefore, s.roles.status = some (.tokenDeposit token record balBefore) ∧
      finishTokenDeposit cfg world token record balBefore s = .ok s') ∨
    (∃ token recipient amount balanceBefore,
      s.roles.status = some (.tokenPayout token recipient amount balanceBefore) ∧
      finishTokenPayout world token recipient amount balanceBefore s = .ok s') := by
  simp [resume] at h
  obtain ⟨-, rest⟩ := h
  split at rest
  · cases rest
  · rename_i suspended
    cases rest
    exact .inl ⟨suspended, rfl⟩
  · rename_i suspended
    exact .inr (.inl ⟨_, _, _, suspended, rest⟩)
  · rename_i suspended
    exact .inr (.inr ⟨_, _, _, _, suspended, rest⟩)

end Intmax.Rollup
