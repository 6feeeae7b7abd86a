import Mathlib.Data.FinEnum
import Intmax.Lib.Ledger
import Intmax.Rollup.Effects

/-! # Conservation of ETH

The contract's ETH is divided among three ledgers: the escrow behind deposits,
the posting bonds and the pull payments.  `Vault.held` is their sum.  A call adds
the value it carries to the balance first, so in the middle of a call the balance
exceeds what is held by exactly that value (`Owing`); every entry point books it.
-/

namespace Intmax.Rollup

open Checked Transition Ledger Truncation

/-- ETH the three ledgers account for. -/
def Vault.held (v : Vault) : Nat :=
  v.totalEscrowed + total Bond.balance v.bonds + total id v.pendingWithdrawals

/-- The balance exceeds the ledgers by exactly `value`. -/
def Owing (value : Nat) (v : Vault) : Prop := v.balance = v.held + value

theorem Owing.balance_eq {v : Vault} (balanced : Owing 0 v) :
    v.balance = v.totalEscrowed + ∑ p, (v.bonds p).balance + ∑ a, v.pendingWithdrawals a := by
  unfold Owing at balanced
  rw [add_zero] at balanced
  unfold Vault.held total at balanced
  simp only [id] at balanced
  exact balanced

theorem Owing.receive {s : Rollup} (balanced : Owing 0 s.vault) (value : Nat) :
    Owing value (receive value s).vault := by
  simp only [Owing, Vault.held, Rollup.receive] at balanced ⊢
  omega

/-! ## Single writes -/

/-- Moving escrow to a recipient moves nothing in or out. -/
theorem creditNativeEscrow_owing {recipient : Address} {amount value : Nat} {v v' : Vault}
    (h : creditNativeEscrow recipient amount v = .ok v') (owing : Owing value v) :
    Owing value v' := by
  obtain ⟨enough, rfl⟩ := creditNativeEscrow_ok h
  have pending := total_update_add id v.pendingWithdrawals recipient
    (v.pendingWithdrawals recipient + amount)
  simp only [id] at pending
  simp only [Owing, Vault.held] at owing ⊢
  omega

theorem creditTokenEscrow_owing {tokenIndex : TokenIndex} {recipient : Address}
    {amount value : Nat} {v v' : Vault}
    (h : creditTokenEscrow tokenIndex recipient amount v = .ok v') (owing : Owing value v) :
    Owing value v' := by
  obtain ⟨-, rfl⟩ := creditTokenEscrow_ok h
  exact owing

theorem raiseReleased_owing {producer : Address} {postIndex value : Nat} {v : Vault}
    (owing : Owing value v) : Owing value (raiseReleased producer postIndex v) := by
  unfold raiseReleased
  split
  · have bonds := total_update_add Bond.balance v.bonds producer
      ⟨(v.bonds producer).balance, (v.bonds producer).posted, postIndex⟩
    simp only [Owing, Vault.held] at owing bonds ⊢
    omega
  · exact owing

theorem payLeaves_owing {pay : Vault → Withdrawal → Except Revert Vault} {value : Nat}
    (single : ∀ v w v', pay v w = .ok v' → Owing value v → Owing value v')
    {ws : List Withdrawal} {v v' : Vault} (h : payLeaves pay ws v = .ok v')
    (owing : Owing value v) : Owing value v' := by
  induction ws generalizing v with
  | nil =>
    cases h
    exact owing
  | cons w ws ih =>
    obtain ⟨v₁, paid, rest⟩ := bind_ok.mp h
    exact ih rest (single v w v₁ paid owing)

theorem consumeWithdrawalGuard_owing {w : Withdrawal} {value : Nat} {v v' : Vault}
    (h : consumeWithdrawalGuard w v = .ok v') (owing : Owing value v) : Owing value v' := by
  simp [consumeWithdrawalGuard] at h
  obtain ⟨-, rfl⟩ := h
  exact owing

theorem payNativeLeaf_owing {w : Withdrawal} {value : Nat} {v v' : Vault}
    (h : payNativeLeaf v w = .ok v') (owing : Owing value v) : Owing value v' := by
  simp [payNativeLeaf] at h
  obtain ⟨-, v₁, consumed, credited⟩ := h
  exact creditNativeEscrow_owing credited (consumeWithdrawalGuard_owing consumed owing)

theorem payTokenLeaf_owing {tokenAddressOf : TokenIndex → Address} {w : Withdrawal}
    {value : Nat} {v v' : Vault} (h : payTokenLeaf tokenAddressOf v w = .ok v')
    (owing : Owing value v) : Owing value v' := by
  simp [payTokenLeaf] at h
  obtain ⟨-, -, v₁, consumed, credited⟩ := h
  exact creditTokenEscrow_owing credited (consumeWithdrawalGuard_owing consumed owing)

/-! ## Truncation -/

theorem forfeitTaken_le (bond : Bond) (amount : Nat) :
    forfeitTaken bond amount ≤ bond.balance := by
  unfold forfeitTaken
  split <;> omega

variable {σ : Type} {cfg : Config}

/-- Everything forfeited so far. -/
def Truncation.forfeited (t : Truncation σ) : Nat := t.offenderForfeited + t.othersForfeited

theorem Truncation.book_ok {t t' : Truncation σ} {isOffender : Bool} {taken : Nat}
    (h : t.book isOffender taken = .ok t') :
    t'.bonds = t.bonds ∧ t'.forfeited = t.forfeited + taken := by
  cases isOffender with
  | true =>
    simp [book] at h
    obtain ⟨-, rfl⟩ := h
    exact ⟨rfl, by simp only [forfeited]; omega⟩
  | false =>
    simp [book] at h
    obtain ⟨-, rfl⟩ := h
    exact ⟨rfl, by simp only [forfeited]; omega⟩

/-- What leaves the bonds is booked, and without `forfeit` nothing leaves them. -/
structure Truncation.Books (forfeit : Bool) (t t' : Truncation σ) : Prop where
  moved : total Bond.balance t'.bonds + t'.forfeited =
    total Bond.balance t.bonds + t.forfeited
  kept : forfeit = false → t'.forfeited = t.forfeited

theorem Truncation.chargeRemoval_books {t t' : Truncation σ} {offender submitter : Address}
    {forfeit : Bool} (h : t.chargeRemoval cfg offender forfeit submitter = .ok t') :
    Books forfeit t t' := by
  simp only [chargeRemoval, bind_ok, sub_ok_iff] at h
  obtain ⟨posted, -, charged⟩ := h
  generalize removed : ({ t.bonds submitter with posted } : Bond) = bond at charged
  have balance_eq : bond.balance = (t.bonds submitter).balance := by rw [← removed]
  cases forfeit with
  | false =>
    cases charged
    have same := total_update_add Bond.balance t.bonds submitter bond
    refine ⟨?_, fun _ => rfl⟩
    simp only [forfeited]
    omega
  | true =>
    obtain ⟨bonds, booked⟩ := book_ok charged
    have taken := total_update_add Bond.balance t.bonds submitter (forfeitBond bond cfg.postStake)
    have capped := forfeitTaken_le bond cfg.postStake
    simp only [forfeitBond] at taken
    simp only [forfeited] at booked
    refine ⟨?_, fun off => by cases off⟩
    rw [bonds]
    simp only [forfeited, forfeitBond]
    omega

variable {sat : Satellite σ}

theorem truncateLoop_books {exit offender : Address} {forfeit : Bool} {target n : Nat}
    {t t' : Truncation σ} (h : truncateLoop cfg sat exit offender forfeit target n t = .ok t') :
    Books forfeit t t' := by
  induction n generalizing t with
  | zero =>
    cases h
    exact ⟨rfl, fun _ => rfl⟩
  | succ n ih =>
    obtain ⟨t₁, one, rest⟩ := bind_ok.mp h
    simp only [truncateOne, bind_ok, revertIf_ok, exists_unit, pure_ok] at one
    obtain ⟨-, charged, charge, rolled, -, rfl⟩ := one
    have first := chargeRemoval_books charge
    have later := ih rest
    exact ⟨later.moved.trans first.moved, fun off => (later.kept off).trans (first.kept off)⟩

theorem Vault.credited_total (recipient : Address) (amount : Nat) (v : Vault) :
    total id (v.credited recipient amount).pendingWithdrawals =
      total id v.pendingWithdrawals + amount := by
  have pending := total_update_add id v.pendingWithdrawals recipient
    (v.pendingWithdrawals recipient + amount)
  simp only [id, credited] at pending ⊢
  omega

/-- The reporter and the treasury are credited all that was forfeited. -/
theorem settleForfeits_total {reporter : Address} {offender others : Nat} {v v' : Vault}
    (h : settleForfeits cfg reporter offender others v = .ok v') :
    v' = { v with pendingWithdrawals := v'.pendingWithdrawals } ∧
    total id v'.pendingWithdrawals =
      total id v.pendingWithdrawals + offender + others := by
  obtain ⟨share, whole, rfl⟩ := settleForfeits_ok h
  refine ⟨rfl, ?_⟩
  rw [Vault.credited_total, Vault.credited_total]
  omega

theorem truncateSubmissions_owing {target : Nat} {reporter : Address} {forfeit : Bool}
    {value : Nat} {s s' : Rollup} {j j' : σ}
    (h : truncateSubmissions cfg sat target reporter forfeit s j = .ok (s', j'))
    (owing : Owing value s.vault) : Owing value s'.vault := by
  simp only [truncateSubmissions, bind_ok] at h
  obtain ⟨t, loop, rest⟩ := h
  obtain ⟨moved, kept⟩ := truncateLoop_books loop
  simp only [forfeited] at moved kept
  cases forfeit with
  | false =>
    have nothing := kept rfl
    cases rest
    simp only [Owing, Vault.held] at owing ⊢
    omega
  | true =>
    simp only [ite_true, bind_ok, add_ok_iff, pure_ok] at rest
    obtain ⟨_, ⟨-, rfl⟩, v, settled, same⟩ := rest
    cases same
    obtain ⟨frame, total⟩ := settleForfeits_total settled
    have base := total_update_add Bond.balance t.bonds (s.chain.submissions target).submitter
      (forfeitBond (t.bonds (s.chain.submissions target).submitter) cfg.baseStake)
    have capped := forfeitTaken_le (t.bonds (s.chain.submissions target).submitter) cfg.baseStake
    rw [frame]
    simp only [forfeitBond] at base
    simp only [Owing, Vault.held, forfeitBond] at owing total ⊢
    omega

theorem lockedStake_error {unfinalized : Nat} {e : Revert}
    (h : lockedStake cfg unfinalized = .error e) : e = .panic := by
  unfold lockedStake at h
  split at h
  · cases h
  · rcases bind_error.mp h with overflow | ⟨_, -, overflow⟩
    · exact (mul_error overflow).symm
    · exact (add_error overflow).symm

/-! ## Payouts -/

/-- A pull payment within the caller's credit is within the contract's balance. -/
theorem Owing.withdraw_funded {env : Env} {amount : Nat} {s : Rollup} (balanced : Owing 0 s.vault) :
    withdraw cfg env amount s ≠ .error .withdrawTransferFailed := by
  intro failed
  simp [withdraw, sendValue, nonPayable, requireReleaseRuntime, nonReentrant, bind_error,
    map_error_iff, revertIf_error] at failed
  obtain ⟨-, -, -, ⟨-, within⟩, short⟩ := failed
  have credit := le_total id s.vault.pendingWithdrawals env.sender
  simp only [id] at credit
  simp only [Owing, Vault.held] at balanced
  omega

theorem Owing.withdrawBond_funded {env : Env} {amount : Nat} {s : Rollup}
    (balanced : Owing 0 s.vault) :
    withdrawBond cfg env amount s ≠ .error .withdrawTransferFailed := by
  intro failed
  simp [withdrawBond, sendValue, nonPayable, requireReleaseRuntime, nonReentrant, bind_error,
    map_error_iff, revertIf_error] at failed
  obtain ⟨-, -, -, underflow | ⟨-, overflow | ⟨_, -, ⟨-, within, -⟩, short⟩⟩⟩ :=
    failed
  · cases sub_error underflow
  · cases lockedStake_error overflow
  · have bond := le_total Bond.balance s.vault.bonds env.sender
    simp only [Owing, Vault.held] at balanced
    omega

/-- `withdraw` pays out of the caller's pull payments alone. -/
def PaysPending (caller : Address) (amount : Nat) (v v' : Vault) : Prop :=
  amount ≤ v.pendingWithdrawals caller ∧
  v' = { v with
    balance := v.balance - amount
    pendingWithdrawals :=
      Function.update v.pendingWithdrawals caller (v.pendingWithdrawals caller - amount) }

/-- `withdrawBond` pays out of the caller's bond alone. -/
def PaysBond (caller : Address) (amount : Nat) (v v' : Vault) : Prop :=
  amount ≤ (v.bonds caller).balance ∧
  v' = { v with
    balance := v.balance - amount
    bonds := Function.update v.bonds caller
      { v.bonds caller with balance := (v.bonds caller).balance - amount } }

/-! ## Whole calls -/

section
variable [Keccak]

theorem Posts.owing {env : Env} {args : PostArgs} {c : PostCursor σ} {submission : Submission}
    {s s' : Rollup} {j j' : σ} (posts : Posts cfg sat env args c submission s s' j j')
    (owing : Owing env.value s.vault) : Owing 0 s'.vault := by
  have charged := total_update_add Bond.balance s.vault.bonds env.sender
    (chargedBond (s.vault.bonds env.sender) env.value)
  rw [posts.vault_eq]
  simp only [chargedBond] at charged
  simp only [Owing, Vault.held, chargedBond] at owing ⊢
  omega

/-- Every entry point books the value it was sent and nothing else. -/
theorem dispatch_owing {env : Env} {world : External} {call : Call} {out : Outcome} {s s' : Rollup}
    {j j' : σ} (h : dispatch cfg sat env world call s j = .ok (out, s', j'))
    (owing : Owing env.value s.vault) : Owing 0 s'.vault := by
  cases call with
  | creditChannelExit manager tokenIndex amount =>
    obtain ⟨value, vault, rfl, ⟨-, credited⟩ | ⟨-, credited⟩⟩ :=
      creditChannelExit_ok (quiet_ok h).1
    · rw [value] at owing
      exact creditNativeEscrow_owing credited owing
    · rw [value] at owing
      exact creditTokenEscrow_owing credited owing
  | postBlockAndSubmit args =>
    obtain ⟨c, submission, posts⟩ := postBlockAndSubmit_ok (quietWith_ok h).1
    exact posts.owing owing
  | postBlockAndSubmitGuarded args number hash =>
    obtain ⟨c, submission, posts⟩ := postBlockAndSubmitGuarded_ok (quietWith_ok h).1
    exact posts.owing owing
  | deposit args =>
    obtain ⟨-, value, intake, -, rfl⟩ | ⟨-, value, -, balBefore, -, rfl⟩ :=
      deposit_ok (quiet_ok h).1
    · simp only [Owing, Vault.held] at owing ⊢
      omega
    · rwa [value] at owing
  | finalize args =>
    obtain ⟨⟨out₁, s₁⟩, ran, same⟩ := bind_ok.mp h
    cases same
    obtain ⟨value, ⟨-, rfl⟩ | ⟨-, -, rfl⟩⟩ := finalize_ok ran
    · rwa [value] at owing
    · rw [value] at owing
      exact raiseReleased_owing owing
  | fraudProof args =>
    obtain ⟨value, ⟨-, rfl, -⟩ | ⟨-, -, -, forfeit, truncated⟩⟩ := fraudProof_ok h
    · rwa [value] at owing
    · rw [value] at owing
      exact truncateSubmissions_owing truncated owing
  | withdraw amount =>
    obtain ⟨value, enough, held, rfl⟩ := withdraw_ok (quiet_ok h).1
    have paid := total_update_add id s.vault.pendingWithdrawals env.sender
      (s.vault.pendingWithdrawals env.sender - amount)
    simp only [id] at paid
    simp only [Owing, Vault.held, enter] at owing ⊢
    omega
  | depositBond =>
    cases depositBond_ok (quiet_ok h).1
    have topped := total_update_add Bond.balance s.vault.bonds env.sender
      ⟨(s.vault.bonds env.sender).balance + env.value, (s.vault.bonds env.sender).posted,
        (s.vault.bonds env.sender).released⟩
    simp only [Owing, Vault.held] at owing topped ⊢
    omega
  | withdrawBond amount =>
    obtain ⟨value, -, enough, held, rfl⟩ := withdrawBond_ok (quiet_ok h).1
    have paid := total_update_add Bond.balance s.vault.bonds env.sender
      ⟨(s.vault.bonds env.sender).balance - amount, (s.vault.bonds env.sender).posted,
        (s.vault.bonds env.sender).released⟩
    simp only [Owing, Vault.held, enter] at owing paid ⊢
    omega
  | releaseBond producer submissionId =>
    obtain ⟨value, -, -, -, rfl⟩ := releaseBond_ok (quiet_ok h).1
    rw [value] at owing
    exact raiseReleased_owing owing
  | withdrawNative args =>
    obtain ⟨value, -, vault, paid, rfl⟩ := withdrawNative_ok (quiet_ok h).1
    rw [value] at owing
    exact payLeaves_owing (fun _ _ _ => payNativeLeaf_owing) paid owing
  | withdrawERC20 args =>
    obtain ⟨value, -, vault, paid, rfl⟩ := withdrawERC20_ok (quiet_ok h).1
    rw [value] at owing
    exact payLeaves_owing (fun _ _ _ => payTokenLeaf_owing) paid owing
  | withdrawToken tokenIndex amount =>
    obtain ⟨value, -, -, balanceBefore, rfl⟩ := withdrawToken_ok (quiet_ok h).1
    rwa [value] at owing
  | resume =>
    obtain ⟨_, noValue, h⟩ := bind_ok.mp h
    have value : env.value = 0 := by simpa [nonPayable] using noValue
    rw [value] at owing
    rcases resume_ok (quiet_ok h).1 with ⟨-, rfl⟩ | ⟨token, record, balBefore,
      -, finished⟩ | ⟨token, recipient, amount, balanceBefore, -, finished⟩
    · exact owing
    · obtain ⟨intake, -, rfl⟩ := finishTokenDeposit_ok finished
      exact owing
    · cases finishTokenPayout_ok finished
      exact owing
  | _ =>
    obtain ⟨value, vault⟩ := (dispatch_keeps h).vault rfl
    rwa [vault, ← value]

theorem Step.owing {e : Event} {s s' : Rollup} (step : Step cfg s e s')
    (balanced : Owing 0 s.vault) : Owing 0 s'.vault := by
  obtain ⟨σ, sat, world, j, j', ran⟩ := step
  exact dispatch_owing ran (balanced.receive e.env.value)

theorem initial_owing (cfg : Config) : Owing 0 (initial cfg).vault := by
  simp [Owing, Vault.held, initial, total_const_zero]

theorem Reachable.owing {s : Rollup} (reachable : Reachable cfg s) : Owing 0 s.vault :=
  Transition.Reachable.invariant (I := fun s => Owing 0 s.vault)
    (fun _ _ _ balanced step => Step.owing step balanced) reachable (initial_owing cfg)

/-- In every reachable state the contract's ETH is the escrow, the bonds and the pull
    payments together, no payout finds it short, and each is taken from its own pot. -/
theorem eth_conserved {s : Rollup} (reachable : Reachable cfg s) :
    s.vault.balance = s.vault.totalEscrowed + ∑ p, (s.vault.bonds p).balance +
      ∑ a, s.vault.pendingWithdrawals a ∧
    ∀ (env : Env) (amount : Nat),
      withdraw cfg env amount s ≠ .error .withdrawTransferFailed ∧
      withdrawBond cfg env amount s ≠ .error .withdrawTransferFailed ∧
      (∀ s', withdraw cfg env amount s = .ok s' →
        PaysPending env.sender amount s.vault s'.vault) ∧
      (∀ s', withdrawBond cfg env amount s = .ok s' →
        PaysBond env.sender amount s.vault s'.vault) := by
  have balanced := Reachable.owing reachable
  refine ⟨balanced.balance_eq, fun env amount =>
    ⟨balanced.withdraw_funded, balanced.withdrawBond_funded, ?_, ?_⟩⟩
  · intro s' paid
    obtain ⟨-, within, -, rfl⟩ := withdraw_ok paid
    exact ⟨within, rfl⟩
  · intro s' paid
    obtain ⟨-, -, within, -, rfl⟩ := withdrawBond_ok paid
    exact ⟨within, rfl⟩

end

section
attribute [local instance] evmKeccak

/-- A deposit, a bonded post, its removal for fraud, and two payouts. -/
def sampleCalls : List (Env × External × Call) :=
  let depositArgs : DepositArgs :=
    { recipient := 0xabc, tokenIndex := 0, amount := 10, auxData := 0 }
  let pin := pendingChainsPin (computeDepositHash 0 (depositArgs.record 4)) 0
  let fraud : ProofArgs :=
    { submissionId := 0, stateRoot := 0x51, proofBytes := [1]
      validityPIs :=
        { initialBlockNumber := 0, initialBlockChain := 0, initialExtCommitment := 0x9e
          finalBlockNumber := 5, finalBlockChain := 0, finalExtCommitment := 0x51, prover := 3 } }
  sampleSetup ++
  [(sampleEnv 4 10 2, sampleExternal, .deposit depositArgs),
   (sampleEnv 3 20 2, sampleExternal, .depositBond),
   (sampleEnv 3 1 3, sampleExternal, .postBlockAndSubmit
      { subBlocks := [sampleBlock], stateRoot := 0x51, expectedPendingChains := pin }),
   (sampleEnv 5 0 4, sampleExternal, .fraudProof fraud),
   (sampleEnv 5 0 5, sampleExternal, .withdraw 6),
   (sampleEnv 5 0 5, sampleExternal, .resume),
   (sampleEnv 3 0 6, sampleExternal, .withdrawBond 10)]

theorem eth_conserved_sample : ∃ s, Reachable sampleConfig s ∧
    s.vault.balance = 15 ∧ s.vault.totalEscrowed = 10 ∧ (s.vault.bonds 3).balance = 4 ∧
    s.vault.pendingWithdrawals 2 = 1 ∧
    s.vault.balance = s.vault.totalEscrowed + ∑ p, (s.vault.bonds p).balance +
      ∑ a, s.vault.pendingWithdrawals a := by
  have ran : runsTo sampleConfig sampleSatellite () sampleCalls (fun _ s =>
      s.vault.balance == 15 && s.vault.totalEscrowed == 10 && (s.vault.bonds 3).balance == 4 &&
        s.vault.pendingWithdrawals 2 == 1) = true := by decide +kernel
  obtain ⟨events, s, run, facts⟩ := runsTo_run ran
  simp at facts
  obtain ⟨⟨⟨balance, escrow⟩, bond⟩, pending⟩ := facts
  have reachable : Reachable sampleConfig s := ⟨events, run⟩
  exact ⟨s, reachable, balance, escrow, bond, pending, (eth_conserved reachable).1⟩

end

end Intmax.Rollup
