import Intmax.Rollup.Specs

/-! # What a completed call can do to the chain

`ChainEffect` says once, for every entry point, how a completed call moves the
posted chain, the post counts of the bonds and the satellite.  Each invariant of
the chain is then a case analysis on six effects instead of twenty calls.
-/

namespace Intmax.Rollup

open Checked Function

/-- The part of an event that concerns the posted chain. -/
inductive ChainAction
  | none
  | bind (manager : Address)
  | post (submitter : Address) (args : PostArgs)
  | finalize (args : ProofArgs)
  | truncate (submissionId : Nat)

def Event.action (e : Event) : ChainAction :=
  match e.call, e.outcome with
  | .registerSettlementManager manager, _ => .bind manager
  | .postBlockAndSubmit args, _ => .post e.env.sender args
  | .postBlockAndSubmitGuarded args _ _, _ => .post e.env.sender args
  | .finalize args, .returned true => .finalize args
  | .fraudProof args, .returned true => .truncate args.submissionId
  | _, _ => .none

@[simp] theorem receive_zero (s : Rollup) : receive 0 s = s := rfl

@[simp] theorem receive_intake (value : Nat) (s : Rollup) :
    (receive value s).intake = s.intake := rfl

variable {σ : Type}

/-! ## Truncations -/

/-- The loop a truncation runs, and the state it leaves. -/
structure Truncates (cfg : Config) (sat : Satellite σ) (target : Nat) (forfeit : Bool)
    (t : Truncation σ) (s s' : Rollup) (j j' : σ) : Prop where
  loop : truncateLoop cfg sat s.roles.channelExitMaterializer
    (s.chain.submissions target).submitter forfeit target (s.chain.nextSubmissionId - target)
    { chain := s.chain, bonds := s.vault.bonds, satellite := j,
      offenderForfeited := 0, othersForfeited := 0 } = .ok t
  chain_eq : s'.chain = { t.chain with nextSubmissionId := target }
  intake_eq : s'.intake = s.intake
  roles_eq : s'.roles = s.roles
  posted_eq : ∀ p, (s'.vault.bonds p).posted = (t.bonds p).posted
  released_eq : ∀ p, (s'.vault.bonds p).released = (t.bonds p).released
  nullifiers_eq : s'.vault.withdrawalNullifierUsed = s.vault.withdrawalNullifierUsed
  satellite_eq : j' = t.satellite

variable {v v' : Vault} {cfg : Config} {sat : Satellite σ} {s s' : Rollup} {j j' : σ}
  {w : Withdrawal} {env : Env} {world : External} {args : PostArgs}

/-- The vault once `recipient` may pull `amount` more. -/
def Vault.credited (recipient : Address) (amount : Nat) (v : Vault) : Vault :=
  { v with pendingWithdrawals :=
      update v.pendingWithdrawals recipient (v.pendingWithdrawals recipient + amount) }

theorem creditPending_ok {recipient : Address} {amount : Nat}
    (h : creditPending recipient amount v = .ok v') : v' = v.credited recipient amount := by
  simp [creditPending] at h
  exact h.2.symm

/-- The reporter gets its share of what the offender lost, and the treasury the rest. -/
theorem settleForfeits_ok {reporter : Address} {offender others : Nat}
    (h : settleForfeits cfg reporter offender others v = .ok v') :
    ∃ share, offender * fraudRewardPercent / 100 + share = offender + others ∧
      v' = (v.credited reporter (offender * fraudRewardPercent / 100)).credited
        cfg.fraudTreasury share := by
  simp only [settleForfeits, ite_ok, bind_ok, mul_ok_iff, sub_ok_iff, add_ok_iff] at h
  rcases h with ⟨⟨rfl, rfl⟩, same⟩ |
    ⟨-, _, ⟨-, rfl⟩, _, ⟨reward, rfl⟩, _, ⟨-, rfl⟩, v₁, first, second⟩
  · -- nothing was lost, and two credits of nothing leave the vault as it is
    cases same
    exact ⟨0, by simp, by simp [Vault.credited]⟩
  · cases creditPending_ok first
    exact ⟨_, by omega, creditPending_ok second⟩

/-- Taking from a bond leaves its two counts. -/
theorem forfeitBond_update_counts (bonds : Address → Bond) (offender : Address) (amount : Nat)
    (p : Address) :
    (update bonds offender (forfeitBond (bonds offender) amount) p).posted =
      (bonds p).posted ∧
    (update bonds offender (forfeitBond (bonds offender) amount) p).released =
      (bonds p).released := by
  by_cases same : p = offender
  · subst same
    simp [forfeitBond]
  · simp [update_of_ne same]

theorem truncateSubmissions_ok {target : Nat} {reporter : Address} {forfeit : Bool}
    (h : truncateSubmissions cfg sat target reporter forfeit s j = .ok (s', j')) :
    ∃ t, Truncates cfg sat target forfeit t s s' j j' := by
  simp only [truncateSubmissions, bind_ok] at h
  obtain ⟨t, loop, rest⟩ := h
  cases forfeit with
  | false =>
    cases rest
    exact ⟨t, loop, rfl, rfl, rfl, fun _ => rfl, fun _ => rfl, rfl, rfl⟩
  | true =>
    simp only [ite_true, bind_ok, pure_ok] at rest
    obtain ⟨_, -, v, settled, same⟩ := rest
    cases same
    obtain ⟨share, -, rfl⟩ := settleForfeits_ok settled
    exact ⟨t, loop, rfl, rfl, rfl, fun p => (forfeitBond_update_counts _ _ _ p).1,
      fun p => (forfeitBond_update_counts _ _ _ p).2, rfl, rfl⟩

/-- No producer's counts of posted and released posts differ. -/
def SameCounts (v v' : Vault) : Prop :=
  ∀ p, (v'.bonds p).posted = (v.bonds p).posted ∧ (v'.bonds p).released = (v.bonds p).released

theorem SameCounts.of_bonds (same : v'.bonds = v.bonds) : SameCounts v v' :=
  fun p => by simp [same]

theorem SameCounts.of_update {q : Address} {bond : Bond}
    (written : v'.bonds = update v.bonds q bond)
    (posted : bond.posted = (v.bonds q).posted) (released : bond.released = (v.bonds q).released) :
    SameCounts v v' := by
  intro p
  rw [written]
  by_cases same : p = q
  · subst same
    simp [posted, released]
  · simp [update_of_ne same]

/-- Withdrawal leaves are paid out of the escrow, never out of a bond. -/
theorem payLeaves_bonds {pay : Vault → Withdrawal → Except Revert Vault}
    (single : ∀ v w v', pay v w = .ok v' → v'.bonds = v.bonds) {ws : List Withdrawal}
    (h : payLeaves pay ws v = .ok v') : v'.bonds = v.bonds := by
  induction ws generalizing v with
  | nil =>
    cases h
    rfl
  | cons w ws ih =>
    obtain ⟨v₁, paid, rest⟩ := bind_ok.mp h
    rw [ih rest, single v w v₁ paid]

theorem consumeWithdrawalGuard_bonds (h : consumeWithdrawalGuard w v = .ok v') :
    v'.bonds = v.bonds := by
  simp [consumeWithdrawalGuard] at h
  obtain ⟨-, rfl⟩ := h
  rfl

theorem payNativeLeaf_bonds (h : payNativeLeaf v w = .ok v') : v'.bonds = v.bonds := by
  simp [payNativeLeaf] at h
  obtain ⟨-, v₁, consumed, credited⟩ := h
  obtain ⟨-, rfl⟩ := creditNativeEscrow_ok credited
  have kept := consumeWithdrawalGuard_bonds consumed
  exact kept

theorem payTokenLeaf_bonds {tokenAddressOf : TokenIndex → Address}
    (h : payTokenLeaf tokenAddressOf v w = .ok v') : v'.bonds = v.bonds := by
  simp [payTokenLeaf] at h
  obtain ⟨-, -, v₁, consumed, credited⟩ := h
  obtain ⟨-, rfl⟩ := creditTokenEscrow_ok credited
  have kept := consumeWithdrawalGuard_bonds consumed
  exact kept

/-- What both ledgers of the tokens hold. -/
def Vault.tokens (v : Vault) : (TokenIndex → Nat) × (TokenIndex → Address → Nat) :=
  (v.escrowedByToken, v.pendingTokenWithdrawals)

theorem raiseReleased_frame (producer : Address) (postIndex : Nat) (v : Vault) :
    (raiseReleased producer postIndex v).tokens = v.tokens ∧
      (raiseReleased producer postIndex v).pendingWithdrawals = v.pendingWithdrawals ∧
      (raiseReleased producer postIndex v).withdrawalNullifierUsed = v.withdrawalNullifierUsed := by
  unfold raiseReleased
  split
  · exact ⟨rfl, rfl, rfl⟩
  · exact ⟨rfl, rfl, rfl⟩

/-! ## What a call leaves alone -/

/-- The calls that record a deposit or a registration. -/
def Call.records : Call → Bool
  | .deposit _ | .registerChannel _ | .resume => true
  | _ => false

/-- The calls that write the chain, a bond or the address of the satellite. -/
def Call.movesChain : Call → Bool
  | .registerSettlementManager _ | .postBlockAndSubmit _ | .postBlockAndSubmitGuarded .. => true
  | .finalize _ | .fraudProof _ | .depositBond | .withdrawBond _ | .releaseBond .. => true
  | _ => false

/-- The calls that write a ledger of credit or the table of tokens, or start a deposit. -/
def Call.movesLedger : Call → Bool
  | .registerToken .. | .creditChannelExit .. | .deposit _ | .fraudProof _ | .withdraw _ => true
  | .withdrawNative _ | .withdrawERC20 _ | .withdrawToken .. | .resume => true
  | _ => false

/-- The calls that only administrate. -/
def Call.administers : Call → Bool
  | .registerToken .. | .registerSettlementManager _ | .setBlockProducer .. => true
  | .setBlockProducerAdmin _ | .setKzgVerifier _ | .registerChannel _ => true
  | _ => false

/-- The array and proof a call submits to one of the two entry points. -/
def Call.withdrawals : Call → Option WithdrawArgs
  | .withdrawNative args => some args
  | .withdrawERC20 args => some args
  | _ => none

/-- No ledger of credit and no token's address differs, and no token deposit was started. -/
structure SameLedgers (s s' : Rollup) : Prop where
  tokens : s'.vault.tokens = s.vault.tokens := by rfl
  native : s'.vault.pendingWithdrawals = s.vault.pendingWithdrawals := by rfl
  addresses : s'.roles.tokenAddressOf = s.roles.tokenAddressOf := by rfl
  frames : ∀ token record balBefore,
    s'.roles.status = some (.tokenDeposit token record balBefore) →
    s.roles.status = some (.tokenDeposit token record balBefore) := by exact fun _ _ _ => id

/-- What a completed call leaves alone, by the kinds of calls it is not. -/
structure Keeps (env : Env) (call : Call) (s s' : Rollup) (j j' : σ) : Prop where
  intake : call.records = false → s'.intake = s.intake := by first | exact fun _ => rfl | nofun
  chain : call.movesChain = false →
      s'.chain = s.chain ∧ s'.vault.bonds = s.vault.bonds ∧
      s'.roles.channelExitMaterializer = s.roles.channelExitMaterializer ∧ j' = j := by
    first | exact fun _ => ⟨rfl, rfl, rfl, rfl⟩ | nofun
  nullifiers : call.withdrawals = none →
      s'.vault.withdrawalNullifierUsed = s.vault.withdrawalNullifierUsed := by
    first | exact fun _ => rfl | nofun
  ledgers : call.movesLedger = false → SameLedgers s s' := by first | exact fun _ => {} | nofun
  vault : call.administers = true → env.value = 0 ∧ s'.vault = s.vault := by nofun

/-- A call that raises a count of released posts keeps what no bond holds. -/
theorem Keeps.released {call : Call} {chain : Chain} {producer : Address} {postIndex : Nat}
    (moves : call.movesChain = true) (plain : call.administers = false) :
    Keeps env call s { s with chain, vault := raiseReleased producer postIndex s.vault } j j := by
  obtain ⟨tokens, native, used⟩ := raiseReleased_frame producer postIndex s.vault
  exact
    { chain := by simp [moves], nullifiers := fun _ => used
      ledgers := fun _ => { tokens, native }, vault := by simp [plain] }

variable [Keccak]

/-! ## Posts -/

/-- The checkpoint recorded under a pin, as a batch reads it. -/
def Intake.batchCheckpoint (s : Intake) (pin : Bytes32) : BatchCheckpoint :=
  let checkpoint := s.pendingChainsCheckpoints pin
  { depositChain := checkpoint.depositHashChain
    registrationChain := checkpoint.channelRegHashChain
    depositCount := packedDepositCount checkpoint.packedCounts }

/-- The counts recorded with the processed pair of chains. -/
def processedCounts (s : Rollup) : Nat :=
  let pin := pendingChainsPin s.chain.depositHashChain s.chain.channelRegHashChain
  (s.intake.pendingChainsCheckpoints pin).packedCounts

def postedMetadata (s : Chain) (c : PostCursor σ) : BatchMetadata :=
  { startBlockNumber := s.blockNumber + 1
    endBlockNumber := c.currentBlockNumber
    previousBlockHash := s.blockHashChain
    previousDepositHashChain := s.depositHashChain
    postingRoundBefore := s.postingRound
    postingRoundAfter := s.postingRound + 1
    processedDepositCountBefore := s.processedDepositCount
    previousChannelRegHashChain := s.channelRegHashChain }

def postedChain (checkpoint : BatchCheckpoint) (submission : Submission) (c : PostCursor σ)
    (s : Chain) : Chain :=
  { s with
    blockHashChain := c.currentHash
    blockDepositHash := c.blockDepositHash
    blockChannelRegHash := c.blockChannelRegHash
    blockHashChainAt := Function.update s.blockHashChainAt c.currentBlockNumber c.currentHash
    blockNumber := c.currentBlockNumber
    postingRound := s.postingRound + 1
    depositHashChain := checkpoint.depositChain
    channelRegHashChain := checkpoint.registrationChain
    processedDepositCount := checkpoint.depositCount
    submissions := Function.update s.submissions s.nextSubmissionId submission
    batchMetadata := Function.update s.batchMetadata s.nextSubmissionId (postedMetadata s c)
    nextSubmissionId := s.nextSubmissionId + 1 }

/-- The bond of `p` with `value` added and one more post counted, at 48 bits. -/
def chargedBond (bond : Bond) (value : Nat) : Bond :=
  { balance := bond.balance + value
    posted := (bond.posted + 1) % 2 ^ 48
    released := bond.released }

/-- A completed post, with the cursor its loop ended in. -/
structure Posts (cfg : Config) (sat : Satellite σ) (env : Env) (args : PostArgs)
    (c : PostCursor σ) (submission : Submission) (s s' : Rollup) (j j' : σ) : Prop where
  known : (s.intake.pendingChainsCheckpoints args.expectedPendingChains).packedCounts ≠ 0
  deposits_ahead : packedDepositCount (processedCounts s) ≤ packedDepositCount
    (s.intake.pendingChainsCheckpoints args.expectedPendingChains).packedCounts
  regs_ahead : packedRegCount (processedCounts s) ≤ packedRegCount
    (s.intake.pendingChainsCheckpoints args.expectedPendingChains).packedCounts
  nonempty : args.subBlocks ≠ []
  ran : postSubBlocks sat s.roles.channelExitMaterializer
    (batchChains (s.intake.batchCheckpoint args.expectedPendingChains) s.chain)
    args.subBlocks (startCursor s.chain j) = .ok c
  submitter_eq : submission.submitter = env.sender
  unfinalized : submission.finalized = false
  index_eq : submission.postIndex = ((s.vault.bonds env.sender).posted + 1) % 2 ^ 48
  covered : cfg.baseStake +
    ((s.vault.bonds env.sender).posted + 1 - (s.vault.bonds env.sender).released) *
      cfg.postStake ≤ (s.vault.bonds env.sender).balance + env.value
  chain_eq : s'.chain = postedChain (s.intake.batchCheckpoint args.expectedPendingChains)
    submission c s.chain
  intake_eq : s'.intake = s.intake
  vault_eq : s'.vault = { s.vault with
    bonds := Function.update s.vault.bonds env.sender
      (chargedBond (s.vault.bonds env.sender) env.value) }
  roles_eq : s'.roles = s.roles
  satellite_eq : j' = c.satellite

theorem postBlockAndSubmitPinned_ok
    (h : postBlockAndSubmitPinned cfg sat env world args s j = .ok (s', j')) :
    ∃ c submission, Posts cfg sat env args c submission s s' j j' := by
  simp [postBlockAndSubmitPinned, postBlockAndSubmitAt, chargeBond, submit, postBlock] at h
  obtain ⟨⟨known, deposits, regs⟩, -, nonempty, -, -, c, ran, -, -, commitment, -, -,
    -, -, -, -, -, covered, rfl, rfl⟩ := h
  refine ⟨c, ⟨commitment, env.sender, false, env.number % 2 ^ 40,
    ((s.vault.bonds env.sender).posted + 1) % 2 ^ 48, args.stateRoot⟩, ?_⟩
  exact
    { known, deposits_ahead := deposits, regs_ahead := regs, nonempty, ran
      submitter_eq := rfl, unfinalized := rfl, index_eq := rfl, covered
      chain_eq := by
        simp [postedChain, setPostIndex, setBatchMetadata, postedMetadata, Intake.batchCheckpoint]
      intake_eq := rfl, vault_eq := rfl, roles_eq := rfl, satellite_eq := rfl }

theorem postBlockAndSubmit_ok (h : postBlockAndSubmit cfg sat env world args s j = .ok (s', j')) :
    ∃ c submission, Posts cfg sat env args c submission s s' j j' := by
  simp only [postBlockAndSubmit, bind_ok] at h
  obtain ⟨_, -, _, -, posted⟩ := h
  exact postBlockAndSubmitPinned_ok posted

theorem postBlockAndSubmitGuarded_ok {number : Nat} {hash : Bytes32}
    (h : postBlockAndSubmitGuarded cfg sat env world args number hash s j = .ok (s', j')) :
    ∃ c submission, Posts cfg sat env args c submission s s' j j' := by
  simp only [postBlockAndSubmitGuarded, bind_ok] at h
  obtain ⟨_, -, _, -, _, -, posted⟩ := h
  exact postBlockAndSubmitPinned_ok posted

theorem Posts.keeps {call : Call} {c : PostCursor σ} {submission : Submission}
    (posts : Posts cfg sat env args c submission s s' j j') (moves : call.movesChain = true)
    (plain : call.administers = false) : Keeps env call s s' j j' where
  intake _ := posts.intake_eq
  chain := by simp [moves]
  nullifiers _ := by rw [posts.vault_eq]
  ledgers _ :=
    { tokens := by rw [posts.vault_eq]; rfl
      native := by rw [posts.vault_eq]
      addresses := by rw [posts.roles_eq]
      frames := by simp [posts.roles_eq] }
  vault := by simp [plain]

variable {call : Call} {out : Outcome}

theorem dispatch_keeps (h : dispatch cfg sat env world call s j = .ok (out, s', j')) :
    Keeps env call s s' j j' := by
  cases call with
  | registerToken tokenIndex token =>
    obtain ⟨ran, -, rfl⟩ := quiet_ok h
    obtain ⟨value, -, rfl⟩ := registerToken_ok ran
    exact { vault := fun _ => ⟨value, rfl⟩ }
  | registerSettlementManager manager =>
    obtain ⟨value, -, intake, vault, status, addresses, -⟩ :=
      registerSettlementManager_ok (quietWith_ok h).1
    exact
      { intake := fun _ => intake
        nullifiers := fun _ => by rw [vault]
        ledgers := fun _ =>
          { tokens := by rw [vault], native := by rw [vault], addresses
            frames := by simp [status] }
        vault := fun _ => ⟨value, vault⟩ }
  | creditChannelExit manager tokenIndex amount =>
    obtain ⟨ran, -, rfl⟩ := quiet_ok h
    obtain ⟨-, vault, rfl, ⟨-, credited⟩ | ⟨-, credited⟩⟩ := creditChannelExit_ok ran
    · obtain ⟨-, rfl⟩ := creditNativeEscrow_ok credited
      exact { }
    · obtain ⟨-, rfl⟩ := creditTokenEscrow_ok credited
      exact { }
  | setBlockProducer producer allowed =>
    obtain ⟨ran, -, rfl⟩ := quiet_ok h
    obtain ⟨value, rfl⟩ := setBlockProducer_ok ran
    exact { vault := fun _ => ⟨value, rfl⟩ }
  | setBlockProducerAdmin admin =>
    obtain ⟨ran, -, rfl⟩ := quiet_ok h
    obtain ⟨value, rfl⟩ := setBlockProducerAdmin_ok ran
    exact { vault := fun _ => ⟨value, rfl⟩ }
  | setKzgVerifier v =>
    obtain ⟨ran, -, rfl⟩ := quiet_ok h
    obtain ⟨value, rfl⟩ := setKzgVerifier_ok ran
    exact { vault := fun _ => ⟨value, rfl⟩ }
  | postBlockAndSubmit args =>
    obtain ⟨c, submission, posts⟩ := postBlockAndSubmit_ok (quietWith_ok h).1
    exact posts.keeps rfl rfl
  | postBlockAndSubmitGuarded args number hash =>
    obtain ⟨c, submission, posts⟩ := postBlockAndSubmitGuarded_ok (quietWith_ok h).1
    exact posts.keeps rfl rfl
  | deposit args =>
    obtain ⟨ran, -, rfl⟩ := quiet_ok h
    obtain ⟨-, -, intake, -, rfl⟩ | ⟨-, -, -, balBefore, -, rfl⟩ := deposit_ok ran
    · exact { }
    · exact { }
  | registerChannel args =>
    obtain ⟨ran, -, rfl⟩ := quiet_ok h
    obtain ⟨value, -, -, -, intake, -, rfl⟩ := registerChannel_ok ran
    exact { vault := fun _ => ⟨value, rfl⟩ }
  | finalize args =>
    obtain ⟨⟨out₁, s₁⟩, ran, same⟩ := bind_ok.mp h
    cases same
    obtain ⟨-, ⟨-, rfl⟩ | ⟨-, -, rfl⟩⟩ := finalize_ok ran
    · exact { }
    · exact .released rfl rfl
  | fraudProof args =>
    obtain ⟨-, ⟨-, rfl, rfl⟩ | ⟨-, -, -, forfeit, truncated⟩⟩ := fraudProof_ok h
    · exact { }
    · -- a truncation moves chain and credits; the other two fields say nothing of this call
      obtain ⟨t, truncates⟩ := truncateSubmissions_ok truncated
      exact { intake := fun _ => truncates.intake_eq
              nullifiers := fun _ => truncates.nullifiers_eq }
  | withdraw amount =>
    obtain ⟨ran, -, rfl⟩ := quiet_ok h
    obtain ⟨-, -, -, rfl⟩ := withdraw_ok ran
    exact { }
  | depositBond =>
    obtain ⟨ran, -, rfl⟩ := quiet_ok h
    cases depositBond_ok ran
    exact { }
  | withdrawBond amount =>
    obtain ⟨ran, -, rfl⟩ := quiet_ok h
    obtain ⟨-, -, -, -, rfl⟩ := withdrawBond_ok ran
    exact { ledgers := fun _ => { frames := nofun } }
  | releaseBond producer submissionId =>
    obtain ⟨ran, -, rfl⟩ := quiet_ok h
    obtain ⟨-, -, -, -, rfl⟩ := releaseBond_ok ran
    exact .released rfl rfl
  | withdrawNative args =>
    obtain ⟨ran, -, rfl⟩ := quiet_ok h
    obtain ⟨-, -, vault, paid, rfl⟩ := withdrawNative_ok ran
    have bonds := payLeaves_bonds (fun _ _ _ => payNativeLeaf_bonds) paid
    exact { chain := fun _ => ⟨rfl, bonds, rfl, rfl⟩ }
  | withdrawERC20 args =>
    obtain ⟨ran, -, rfl⟩ := quiet_ok h
    obtain ⟨-, -, vault, paid, rfl⟩ := withdrawERC20_ok ran
    have bonds := payLeaves_bonds (fun _ _ _ => payTokenLeaf_bonds) paid
    exact { chain := fun _ => ⟨rfl, bonds, rfl, rfl⟩ }
  | withdrawToken tokenIndex amount =>
    obtain ⟨ran, -, rfl⟩ := quiet_ok h
    obtain ⟨-, -, -, balanceBefore, rfl⟩ := withdrawToken_ok ran
    exact { }
  | resume =>
    obtain ⟨_, -, h⟩ := bind_ok.mp h
    obtain ⟨ran, -, rfl⟩ := quiet_ok h
    rcases resume_ok ran with ⟨-, rfl⟩ | ⟨token, record, balBefore, -, finished⟩ |
      ⟨token, recipient, amount, balanceBefore, -, finished⟩
    · exact { }
    · obtain ⟨intake, -, rfl⟩ := finishTokenDeposit_ok finished
      exact { }
    · cases finishTokenPayout_ok finished
      exact { }

/-! ## Every call -/

/-- What a completed call does to the chain, the counts of the bonds and the satellite. -/
inductive ChainEffect (cfg : Config) (sat : Satellite σ) (env : Env) :
    ChainAction → Rollup → Rollup → σ → σ → Prop
  | idle {s s' : Rollup} {j : σ} :
      s'.chain = s.chain → SameCounts s.vault s'.vault →
      s'.roles.channelExitMaterializer = s.roles.channelExitMaterializer →
      ChainEffect cfg sat env .none s s' j j
  | bind {s s' : Rollup} {j j' : σ} {manager : Address} :
      s'.chain = s.chain → s'.vault = s.vault →
      (s'.roles.channelExitMaterializer = s.roles.channelExitMaterializer ∧ j' = j ∨
        ∃ materializer, materializer ≠ 0 ∧ s'.roles.channelExitMaterializer = materializer ∧
          (s.roles.channelExitMaterializer = 0 ∧ s.vault.totalEscrowed = 0 ∧
              s.roles.registeredTokenCount = 0 ∨
            s.roles.channelExitMaterializer = materializer) ∧
          sat.bindManager materializer s' manager j = .ok j') →
      ChainEffect cfg sat env (.bind manager) s s' j j'
  | release {s : Rollup} {j : σ} {producer : Address} {submissionId : Nat} :
      producer ≠ 0 → (s.chain.submissions submissionId).submitter = producer →
      (s.chain.batchMetadata submissionId).endBlockNumber ≤ s.chain.latestFinalizedBlockNumber →
      ChainEffect cfg sat env .none s
        { s with vault :=
            raiseReleased producer (s.chain.submissions submissionId).postIndex s.vault } j j
  | post {s s' : Rollup} {j j' : σ} {args : PostArgs} {c : PostCursor σ}
      {submission : Submission} :
      Posts cfg sat env args c submission s s' j j' →
      ChainEffect cfg sat env (.post env.sender args) s s' j j'
  | finalize {s : Rollup} {j : σ} {world : External} {args : ProofArgs} :
      checkFinalize world args s.chain = .ok () →
      ChainEffect cfg sat env (.finalize args) s
        { s with
          chain := markFinalized args s.chain
          vault := raiseReleased (s.chain.submissions args.submissionId).submitter
            (s.chain.submissions args.submissionId).postIndex s.vault } j j
  | truncate {s s' : Rollup} {j j' : σ} {target : Nat} {forfeit : Bool} {t : Truncation σ} :
      (s.chain.submissions target).commitment ≠ 0 →
      s.chain.latestFinalizedBlockNumber < (s.chain.batchMetadata target).startBlockNumber →
      Truncates cfg sat target forfeit t s s' j j' →
      ChainEffect cfg sat env (.truncate target) s s' j j'

/-- A call that touches neither the chain nor the bonds. -/
theorem Keeps.idle (keeps : Keeps env call s s' j j') (still : call.movesChain = false) :
    ChainEffect cfg sat env .none s s' j j' := by
  obtain ⟨chain, bonds, exit, rfl⟩ := keeps.chain still
  exact .idle chain (.of_bonds bonds) exit

theorem dispatch_effect (h : dispatch cfg sat env world call s j = .ok (out, s', j')) :
    ChainEffect cfg sat env (Event.action ⟨env, call, out⟩) s s' j j' := by
  cases call with
  | registerSettlementManager manager =>
    obtain ⟨ran, -⟩ := quietWith_ok h
    obtain ⟨-, chain, -, vault, -, -, ⟨exit, rfl⟩ | ⟨materializer, nonzero, -,
      exit, allowed, bound⟩⟩ := registerSettlementManager_ok ran
    · exact .bind chain vault (.inl ⟨exit, rfl⟩)
    · exact .bind chain vault (.inr ⟨materializer, nonzero, exit, allowed, bound⟩)
  | postBlockAndSubmit args =>
    obtain ⟨c, submission, posts⟩ := postBlockAndSubmit_ok (quietWith_ok h).1
    exact .post posts
  | postBlockAndSubmitGuarded args number hash =>
    obtain ⟨c, submission, posts⟩ := postBlockAndSubmitGuarded_ok (quietWith_ok h).1
    exact .post posts
  | finalize args =>
    obtain ⟨⟨out₁, s₁⟩, ran, same⟩ := bind_ok.mp h
    cases same
    obtain ⟨-, ⟨⟨reason, rfl⟩, rfl⟩ | ⟨rfl, checked, rfl⟩⟩ := finalize_ok ran
    · exact .idle rfl (.of_bonds rfl) rfl
    · exact .finalize checked
  | fraudProof args =>
    obtain ⟨-, ⟨rfl, rfl, rfl⟩ | ⟨rfl, found, above, forfeit, truncated⟩⟩ :=
      fraudProof_ok h
    · exact .idle rfl (.of_bonds rfl) rfl
    · obtain ⟨t, truncates⟩ := truncateSubmissions_ok truncated
      exact .truncate found above truncates
  | depositBond =>
    obtain ⟨ran, -, rfl⟩ := quiet_ok h
    cases depositBond_ok ran
    exact .idle rfl (.of_update rfl rfl rfl) rfl
  | withdrawBond amount =>
    obtain ⟨ran, -, rfl⟩ := quiet_ok h
    obtain ⟨-, -, -, -, rfl⟩ := withdrawBond_ok ran
    exact .idle rfl (.of_update rfl rfl rfl) rfl
  | releaseBond producer submissionId =>
    obtain ⟨ran, -, rfl⟩ := quiet_ok h
    obtain ⟨-, nonzero, submitter, final, rfl⟩ := releaseBond_ok ran
    exact .release nonzero submitter final
  | _ => exact (dispatch_keeps h).idle rfl

/-- Every completed call of a run has one of the six effects. -/
theorem Step.effect {e : Event} (step : Step cfg s e s') :
    ∃ (σ : Type) (sat : Satellite σ) (j j' : σ),
      ChainEffect cfg sat e.env e.action (receive e.env.value s) s' j j' := by
  obtain ⟨σ, sat, world, j, j', ran⟩ := step
  exact ⟨σ, sat, j, j', dispatch_effect ran⟩

end Intmax.Rollup
