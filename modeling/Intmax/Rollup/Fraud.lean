import Intmax.Rollup.Conservation
import Intmax.Rollup.BondIndex

/-! # The economics of fraud proofs

A proven fraud takes `postStake` for every removed post from its producer and `baseStake` from the
offender, each capped at the bond left.  One pass of the loop books what it takes from the
offender apart from the rest, so the reward is a share of the offender's own bond, whoever
reports.
-/

namespace Intmax.Rollup

open Checked Function List Truncation

section
variable {σ : Type} {cfg : Config} {sat : Satellite σ}

/-! ## What the loop takes -/

/-- How many of the posts from `target` on are `p`'s. -/
def Chain.removedPosts (c : Chain) (target : Nat) (p : Address) : Nat :=
  (List.range (c.nextSubmissionId - target)).countP fun n => c.submitter (target + n) = p

/-- What one removed post costs its producer. -/
def Config.postForfeit (cfg : Config) (forfeit : Bool) : Nat := if forfeit then cfg.postStake else 0

theorem forfeitBond_balance (bond : Bond) (amount : Nat) :
    (forfeitBond bond amount).balance = bond.balance - amount := by
  unfold forfeitBond forfeitTaken
  dsimp only
  split <;> omega

theorem forfeitTaken_add (bond : Bond) (amount : Nat) :
    forfeitTaken bond amount + (forfeitBond bond amount).balance = bond.balance := by
  have capped := forfeitTaken_le bond amount
  simp only [forfeitBond]
  omega

variable {t t' : Truncation σ} {offender exit reporter : Address} {forfeit : Bool} {target : Nat}
  {v v' : Vault} {s s' : Rollup} {j j' : σ}

theorem Truncation.book_offender {isOffender : Bool} {taken : Nat}
    (h : t.book isOffender taken = .ok t') :
    t'.offenderForfeited = t.offenderForfeited + if isOffender = true then taken else 0 := by
  cases isOffender with
  | true =>
    simp [book] at h
    obtain ⟨-, rfl⟩ := h
    rfl
  | false =>
    simp [book] at h
    obtain ⟨-, rfl⟩ := h
    rfl

/-- One pass charges one producer, and the offender's account grows by what the offender loses. -/
structure Charges (cost : Nat) (offender producer : Address) (t t' : Truncation σ) : Prop where
  balance : ∀ p, (t'.bonds p).balance = (t.bonds p).balance - if p = producer then cost else 0
  offender : t'.offenderForfeited + (t'.bonds offender).balance =
    t.offenderForfeited + (t.bonds offender).balance

theorem Truncation.chargeRemoval_charges {submitter : Address}
    (h : t.chargeRemoval cfg offender forfeit submitter = .ok t') :
    Charges (cfg.postForfeit forfeit) offender submitter t t' := by
  simp only [chargeRemoval, bind_ok, sub_ok_iff] at h
  obtain ⟨posted, -, charged⟩ := h
  generalize removed : ({ t.bonds submitter with posted } : Bond) = bond at charged
  have balance_eq : bond.balance = (t.bonds submitter).balance := by rw [← removed]
  cases forfeit with
  | false =>
    cases charged
    have same (p : Address) :
        (update t.bonds submitter bond p).balance = (t.bonds p).balance := by
      by_cases here : p = submitter
      · rw [here, update_self, balance_eq]
      · rw [update_of_ne here]
    refine ⟨fun p => ?_, ?_⟩
    · simp [same, Config.postForfeit]
    · simp only [same]
  | true =>
    have taken := forfeitTaken_add bond cfg.postStake
    have left := forfeitBond_balance bond cfg.postStake
    have bonds : t'.bonds = update t.bonds submitter (forfeitBond bond cfg.postStake) :=
      (book_ok charged).1
    have updated (p : Address) : (t'.bonds p).balance =
        (t.bonds p).balance - if p = submitter then cfg.postStake else 0 := by
      rw [bonds]
      by_cases here : p = submitter
      · rw [here, update_self, left, balance_eq, if_pos rfl]
      · rw [update_of_ne here, if_neg here, Nat.sub_zero]
    refine ⟨updated, ?_⟩
    have booked := book_offender charged
    rw [booked, bonds]
    by_cases own : submitter = offender
    · subst own
      rw [update_self, beq_self_eq_true, if_pos rfl]
      dsimp only
      omega
    · rw [update_of_ne (Ne.symm own), if_neg (by simpa using own), add_zero]

/-- Removing a post leaves the submitters of the others. -/
theorem Removes.submitter {submissionId id : Nat} (removes : Removes sat exit submissionId t t')
    (other : id ≠ submissionId) : t'.chain.submitter id = t.chain.submitter id := by
  rw [removes.chain_eq]
  simp only [Chain.submitter, deleteSubmission, update_of_ne other]
  unfold rolledBack
  dsimp only
  split
  · rfl
  · rfl

theorem truncateOne_charges [Keccak] {id : Nat}
    (h : truncateOne cfg sat exit offender forfeit id t = .ok t') :
    Charges (cfg.postForfeit forfeit) offender (t.chain.submitter id) t t' := by
  simp only [truncateOne, bind_ok, revertIf_ok, exists_unit, pure_ok] at h
  obtain ⟨-, charged, charge, rolled, -, rfl⟩ := h
  obtain ⟨balance, own⟩ := chargeRemoval_charges charge
  exact ⟨balance, own⟩

theorem truncateLoop_charges [Keccak] {n : Nat}
    (h : truncateLoop cfg sat exit offender forfeit target n t = .ok t') :
    (∀ p, (t'.bonds p).balance = (t.bonds p).balance - cfg.postForfeit forfeit *
      (range n).countP fun k => t.chain.submitter (target + k) = p) ∧
    t'.offenderForfeited + (t'.bonds offender).balance =
      t.offenderForfeited + (t.bonds offender).balance := by
  induction n generalizing t with
  | zero =>
    cases h
    exact ⟨fun p => by simp, rfl⟩
  | succ n ih =>
    obtain ⟨t₁, one, rest⟩ := bind_ok.mp h
    obtain ⟨balance, own⟩ := truncateOne_charges one
    obtain ⟨later, later_own⟩ := ih rest
    refine ⟨fun p => ?_, later_own.trans own⟩
    -- the posts below are still as they were
    have others : ((range n).countP fun k => t₁.chain.submitter (target + k) = p) =
        (range n).countP fun k => t.chain.submitter (target + k) = p := by
      refine countP_congr fun k member => ?_
      have below := mem_range.mp member
      rw [(truncateOne_ok one).submitter (by omega)]
    rw [later, others, balance, range_succ, countP_append, countP_singleton, mul_add]
    by_cases here : t.chain.submitter (target + n) = p
    · simp [here]
      omega
    · simp only [here, Ne.symm here, if_false, decide_false, Bool.false_eq_true, mul_zero]
      omega

/-! ## What is credited -/

/-- What `p` lost of its bond. -/
def Vault.taken (v v' : Vault) (p : Address) : Nat := (v.bonds p).balance - (v'.bonds p).balance

theorem Vault.credited_apply (recipient : Address) (amount : Nat) (v : Vault) (p : Address) :
    (v.credited recipient amount).pendingWithdrawals p =
      v.pendingWithdrawals p + if p = recipient then amount else 0 := by
  by_cases here : p = recipient
  · subst here
    simp [credited]
  · simp [credited, here]

/-- What was lost in all, when nobody gained. -/
theorem sum_taken (lost : ∀ p, (v'.bonds p).balance ≤ (v.bonds p).balance)
    (accounts : Finset Address) :
    ∑ p ∈ accounts, v.taken v' p + ∑ p ∈ accounts, (v'.bonds p).balance =
      ∑ p ∈ accounts, (v.bonds p).balance := by
  rw [← Finset.sum_add_distrib]
  exact Finset.sum_congr rfl fun p _ => Nat.sub_add_cancel (lost p)

/-- What a proven fraud does to the bonds and the pull payments. -/
structure Settles (cfg : Config) (target : Nat) (reporter : Address) (s s' : Rollup) : Prop where
  balance : ∀ p, (s'.vault.bonds p).balance = (s.vault.bonds p).balance -
    (cfg.postStake * s.chain.removedPosts target p +
      if p = s.chain.submitter target then cfg.baseStake else 0)
  credited : ∃ reward share,
    reward = s.vault.taken s'.vault (s.chain.submitter target) * fraudRewardPercent / 100 ∧
    reward + share = ∑ p, s.vault.taken s'.vault p ∧
    ∀ p, s'.vault.pendingWithdrawals p = s.vault.pendingWithdrawals p +
      (if p = reporter then reward else 0) + if p = cfg.fraudTreasury then share else 0

theorem truncateSubmissions_settles [Keccak]
    (h : truncateSubmissions cfg sat target reporter true s j = .ok (s', j')) :
    Settles cfg target reporter s s' := by
  simp only [truncateSubmissions, bind_ok] at h
  obtain ⟨t, loop, rest⟩ := h
  obtain ⟨balance, own⟩ := truncateLoop_charges loop
  obtain ⟨moved, -⟩ := truncateLoop_books loop
  simp only [ite_true, bind_ok, add_ok_iff, pure_ok] at rest
  obtain ⟨_, ⟨-, rfl⟩, v, settled, same⟩ := rest
  cases same
  have bonds : v.bonds = update t.bonds (s.chain.submissions target).submitter (forfeitBond (t.bonds
      (s.chain.submissions target).submitter) cfg.baseStake) := by
    obtain ⟨share, -, rfl⟩ := settleForfeits_ok settled
    rfl
  have left : ∀ p, (v.bonds p).balance = (s.vault.bonds p).balance -
      (cfg.postStake * s.chain.removedPosts target p +
        if p = s.chain.submitter target then cfg.baseStake else 0) := by
    intro p
    rw [bonds]
    by_cases here : p = s.chain.submitter target
    · subst here
      simp [Chain.submitter, forfeitBond_balance]
      rw [balance, Nat.sub_sub]
      rfl
    · rw [if_neg here, add_zero]
      have other : p ≠ (s.chain.submissions target).submitter := here
      simp only [update_of_ne other]
      exact balance p
  have lost (p : Address) : (v.bonds p).balance ≤ (s.vault.bonds p).balance := by
    rw [left]
    exact Nat.sub_le _ _
  -- the offender's account is what the offender lost, to the loop and with the base
  have base := forfeitTaken_add (t.bonds (s.chain.submissions target).submitter) cfg.baseStake
  have ends : (v.bonds (s.chain.submissions target).submitter).balance =
      (forfeitBond (t.bonds (s.chain.submissions target).submitter) cfg.baseStake).balance := by
    rw [bonds, update_self]
  have offender : t.offenderForfeited +
      forfeitTaken (t.bonds (s.chain.submissions target).submitter) cfg.baseStake =
      s.vault.taken v (s.chain.submitter target) := by
    simp only [Vault.taken, Chain.submitter] at own ⊢
    omega
  have whole := sum_taken lost Finset.univ
  have update := Ledger.total_update_add Bond.balance t.bonds (s.chain.submissions target).submitter
    (forfeitBond (t.bonds (s.chain.submissions target).submitter) cfg.baseStake)
  rw [← bonds] at update
  simp only [forfeited, Ledger.total] at moved update
  rw [offender] at settled
  obtain ⟨share, all, paid⟩ := settleForfeits_ok settled
  refine ⟨left, _, share, rfl, ?_, fun p => (congrArg (·.pendingWithdrawals p) paid).trans ?_⟩
  · dsimp only at *
    omega
  · rw [Vault.credited_apply, Vault.credited_apply]

theorem truncateSubmissions_timeout [Keccak]
    (h : truncateSubmissions cfg sat target reporter false s j = .ok (s', j')) :
    (∀ p, (s'.vault.bonds p).balance = (s.vault.bonds p).balance) ∧
    s'.vault.pendingWithdrawals = s.vault.pendingWithdrawals := by
  simp only [truncateSubmissions, bind_ok] at h
  obtain ⟨t, loop, rest⟩ := h
  obtain ⟨balance, -⟩ := truncateLoop_charges loop
  cases rest
  refine ⟨fun p => ?_, rfl⟩
  rw [balance]
  simp [Config.postForfeit]

/-! ## Fraud proofs -/

/-- The target was not finalized in time. -/
def fraudTimedOut (env : Env) (args : ProofArgs) (c : Chain) : Bool :=
  decide ((c.submissions args.submissionId).submittedAtBlock + finalizeDeadlineBlocks < env.number)

/-- Whether a call proves a fraud; without a proof a late target is not examined. -/
def fraudConfirmed [Keccak] (env : Env) (world : External) (args : ProofArgs) (s : Rollup) :
    Except Revert Bool :=
  if fraudTimedOut env args s.chain = false ∨ args.proofBytes ≠ [] then verifyFraud world args s
  else pure false

theorem fraudProof_removes [Keccak] {env : Env} {world : External} {args : ProofArgs}
    (h : fraudProof cfg sat env world args s j = .ok (.returned true, s', j')) :
    env.value = 0 ∧ ∃ confirmed, fraudConfirmed env world args s = .ok confirmed ∧
      (confirmed = true ∨ fraudTimedOut env args s.chain = true) ∧
      truncateSubmissions cfg sat args.submissionId env.sender confirmed s j = .ok (s', j') := by
  simp only [fraudProof, nonPayable, nonReentrant, bind_ok, revertIf_ok, exists_unit,
    ite_ok, pure_ok] at h
  obtain ⟨value, -, rest⟩ := h
  refine ⟨not_not.mp value, ?_⟩
  rcases rest with ⟨-, same⟩ | ⟨-, -, -, decided⟩
  · cases same
  · -- both ways to the verdict end in `fraudConfirmed`
    obtain ⟨confirmed, verdict, tail⟩ :
        ∃ confirmed, fraudConfirmed env world args s = .ok confirmed ∧ ((confirmed = false ∧
          fraudTimedOut env args s.chain = false) ∧ (Outcome.returned false, s, j) = (.returned
          true, s', j') ∨ ¬ (confirmed = false ∧ fraudTimedOut env args s.chain = false) ∧
            ∃ a,
          truncateSubmissions cfg sat args.submissionId env.sender confirmed s j = .ok a ∧
          (Outcome.returned true, a.1, a.2) = (.returned true, s', j')) := by
      rcases decided with ⟨asked, confirmed, verified, tail⟩ | ⟨unasked,
        confirmed, none, tail⟩
      · exact ⟨confirmed, (if_pos asked).trans verified, tail⟩
      · exact ⟨confirmed, (if_neg unasked).trans (congrArg Except.ok none), tail⟩
    rcases tail with ⟨-, same⟩ | ⟨removed, a, truncated, same⟩
    · cases same
    · cases same
      refine ⟨confirmed, verdict, ?_, truncated⟩
      cases confirmed with
      | true => exact Or.inl rfl
      | false => exact Or.inr (by simpa using removed)

/-- What a set of addresses holds in bonds and pull payments. -/
def Vault.wealth (v : Vault) (accounts : Finset Address) : Nat :=
  ∑ p ∈ accounts, ((v.bonds p).balance + v.pendingWithdrawals p)

/-- Nobody profits from a fraud of their own, with whomever they share. -/
theorem Settles.wealth_lt (settles : Settles cfg target reporter s s') {accounts : Finset Address}
    (treasury : cfg.fraudTreasury ∉ accounts) (offender : s.chain.submitter target ∈ accounts)
    (taken : ∃ p ∈ accounts, (s'.vault.bonds p).balance < (s.vault.bonds p).balance) :
    s'.vault.wealth accounts < s.vault.wealth accounts := by
  obtain ⟨reward, share, rfl, -, pending⟩ := settles.credited
  have lost (p : Address) : (s'.vault.bonds p).balance ≤ (s.vault.bonds p).balance := by
    rw [settles.balance]
    exact Nat.sub_le _ _
  have moved := sum_taken lost accounts
  -- the accounts are credited the reward at most
  have credited : ∑ p ∈ accounts, s'.vault.pendingWithdrawals p ≤
      ∑ p ∈ accounts, s.vault.pendingWithdrawals p +
        s.vault.taken s'.vault (s.chain.submitter target) * fraudRewardPercent / 100 := by
    have each : ∀ p ∈ accounts, s'.vault.pendingWithdrawals p =
        s.vault.pendingWithdrawals p + if p = reporter then
          s.vault.taken s'.vault (s.chain.submitter target) * fraudRewardPercent / 100 else 0 := by
      intro p member
      have other : p ≠ cfg.fraudTreasury := fun same => treasury (same ▸ member)
      rw [pending, if_neg other, add_zero]
    rw [Finset.sum_congr rfl each, Finset.sum_add_distrib, Finset.sum_ite_eq']
    split <;> omega
  have own : s.vault.taken s'.vault (s.chain.submitter target) ≤ ∑ p ∈ accounts, s.vault.taken
      s'.vault p := Finset.single_le_sum (fun p _ => Nat.zero_le _) offender
  have some_taken : 0 < ∑ p ∈ accounts, s.vault.taken s'.vault p := by
    obtain ⟨p, member, less⟩ := taken
    exact Finset.sum_pos' (fun q _ => Nat.zero_le _) ⟨p, member, Nat.sub_pos_of_lt less⟩
  simp only [Vault.wealth, Finset.sum_add_distrib]
  simp only [fraudRewardPercent] at credited
  omega

/-- What a successful fraud proof does to the money.  If the fraud is proven, the reporter is
    credited 90% of what the target's submitter lost and the treasury everything else that was
    taken, the others lose their post stakes only, and no set of addresses with the submitter and
    without the treasury comes out even.  A removal for lateness moves nothing. -/
theorem fraud_economics [Keccak] {env : Env} {world : External} {args : ProofArgs}
    {s s' : Rollup} {j j' : σ}
    (h : exec cfg sat env world (.fraudProof args) s j = .ok (.returned true, s', j')) :
    ∃ confirmed, fraudConfirmed env world args s = .ok confirmed ∧
      (confirmed = true →
        (∃ reward share,
          reward = s.vault.taken s'.vault (s.chain.submitter args.submissionId) *
            fraudRewardPercent / 100 ∧
          reward + share = ∑ p, s.vault.taken s'.vault p ∧
          ∀ p, s'.vault.pendingWithdrawals p = s.vault.pendingWithdrawals p +
            (if p = env.sender then reward else 0) + if p = cfg.fraudTreasury then share else 0) ∧
        (∀ p, (s'.vault.bonds p).balance = (s.vault.bonds p).balance -
          (cfg.postStake * s.chain.removedPosts args.submissionId p +
            if p = s.chain.submitter args.submissionId then cfg.baseStake else 0)) ∧
        (∀ p, p ≠ s.chain.submitter args.submissionId →
          s.vault.taken s'.vault p ≤ cfg.postStake * s.chain.removedPosts args.submissionId p) ∧
        ∀ accounts : Finset Address, cfg.fraudTreasury ∉ accounts →
          s.chain.submitter args.submissionId ∈ accounts →
          (∃ p ∈ accounts, (s'.vault.bonds p).balance < (s.vault.bonds p).balance) →
          s'.vault.wealth accounts < s.vault.wealth accounts) ∧
      (confirmed = false → fraudTimedOut env args s.chain = true ∧
        (∀ p, (s'.vault.bonds p).balance = (s.vault.bonds p).balance) ∧
        s'.vault.pendingWithdrawals = s.vault.pendingWithdrawals) := by
  obtain ⟨value, confirmed, verdict, removed, truncated⟩ := fraudProof_removes h
  -- the call carries no value, so the state it starts in is `s`
  have plain : receive env.value s = s := by rw [value]; rfl
  rw [plain] at verdict removed truncated
  refine ⟨confirmed, verdict, fun proven => ?_, fun late => ?_⟩
  · subst proven
    have settles := truncateSubmissions_settles truncated
    refine ⟨settles.credited, settles.balance, fun p other => ?_,
      fun accounts treasury offender taken => settles.wealth_lt treasury offender taken⟩
    have left := settles.balance p
    rw [if_neg other] at left
    simp only [Vault.taken]
    omega
  · subst late
    obtain ⟨balances, pending⟩ := truncateSubmissions_timeout truncated
    exact ⟨removed.resolve_left Bool.false_ne_true, balances, pending⟩

end

section
attribute [local instance] evmKeccak

/-- Address 3 posts twice and address 6 once on top of a fraud. -/
def fraudCalls : List (Env × External × Call) :=
  let post (producer : Address) (value number : Nat) : Env × External × Call :=
    (sampleEnv producer value number, sampleExternal, .postBlockAndSubmit
      { subBlocks := [sampleBlock], stateRoot := 0x51,
        expectedPendingChains := pendingChainsPin 0 0 })
  sampleSetup ++
  [(sampleEnv 1 0 1, sampleExternal, .setBlockProducer 6 true),
   post 3 20 2, post 6 20 3, post 3 0 4]

/-- The report of the first post by address 5. -/
def fraudReport : ProofArgs :=
  { submissionId := 0, stateRoot := 0x51, proofBytes := [1]
    validityPIs :=
      { initialBlockNumber := 0, initialBlockChain := 0, initialExtCommitment := 0x9e
        finalBlockNumber := 5, finalBlockChain := 0, finalExtCommitment := 0x51, prover := 3 } }

/-- The report runs in `s`, proves the fraud and takes 9 from address 3. -/
def reportTakes (s : Rollup) : Bool :=
  match exec sampleConfig sampleSatellite (sampleEnv 5 0 5) sampleExternal
      (.fraudProof fraudReport) s () with
  | .ok (outcome, s', _) =>
    outcome == .returned true && (s.vault.bonds 3).balance == 20 && (s'.vault.bonds 3).balance == 11
  | .error _ => false

theorem reportTakes_ran {s : Rollup} (takes : reportTakes s = true) : ∃ s',
    exec sampleConfig sampleSatellite (sampleEnv 5 0 5) sampleExternal (.fraudProof fraudReport) s
      () = .ok (.returned true, s', ()) ∧
    (s.vault.bonds 3).balance = 20 ∧ (s'.vault.bonds 3).balance = 11 := by
  unfold reportTakes at takes
  split at takes
  · rename_i outcome s' j ran
    simp at takes
    obtain ⟨⟨rfl, before⟩, after⟩ := takes
    exact ⟨s', ran, before, after⟩
  · cases takes

/-- The offender and the reporter lose together. -/
theorem fraud_economics_sample : ∃ s s', Reachable sampleConfig s ∧
    exec sampleConfig sampleSatellite (sampleEnv 5 0 5) sampleExternal (.fraudProof fraudReport) s
      () = .ok (.returned true, s', ()) ∧
    s'.vault.wealth {3, 5} < s.vault.wealth {3, 5} := by
  have ran : runsTo sampleConfig sampleSatellite () fraudCalls (fun _ s =>
      reportTakes s && s.chain.submitter 0 == 3 &&
        !fraudTimedOut (sampleEnv 5 0 5) fraudReport s.chain) = true := by decide +kernel
  obtain ⟨events, s, run, facts⟩ := runsTo_run ran
  simp at facts
  obtain ⟨⟨takes, submitter⟩, early⟩ := facts
  obtain ⟨s', report, before, after⟩ := reportTakes_ran takes
  refine ⟨s, s', ⟨events, run⟩, report, ?_⟩
  obtain ⟨confirmed, -, proven, late⟩ := fraud_economics report
  cases confirmed with
  | false => exact absurd ((late rfl).1.symm.trans early) (by decide)
  | true =>
    refine (proven rfl).2.2.2 {3, 5} (by decide) ?_ ⟨3, by decide, by omega⟩
    have target : s.chain.submitter fraudReport.submissionId = 3 := submitter
    rw [target]
    decide

end

end Intmax.Rollup
