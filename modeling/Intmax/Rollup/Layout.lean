import Intmax.Rollup.Batches

/-! # Layout of the posted chain

Live submissions cover the posted heights without gap or overlap, in the order of
their ids, and nothing is stored past them.  Posting appends to the layout and
`retract` removes its last batch; the ids a truncation frees are as if never used.
-/

namespace Intmax.Rollup

open Checked Function

/-- The head before submission `id` was posted. -/
def Chain.heightBefore (c : Chain) : Nat → Nat
  | 0 => 0
  | id + 1 => (c.batchMetadata id).endBlockNumber

@[simp] theorem Chain.heightBefore_succ (c : Chain) (id : Nat) :
    c.heightBefore (id + 1) = (c.batchMetadata id).endBlockNumber := rfl

variable {id : Nat}

/-- Heights are read off the metadata of earlier submissions only. -/
theorem Chain.heightBefore_congr {c c' : Chain}
    (same : ∀ k, k < id → c'.batchMetadata k = c.batchMetadata k) :
    c'.heightBefore id = c.heightBefore id := by
  cases id with
  | zero => rfl
  | succ id => rw [heightBefore_succ, heightBefore_succ, same id (lt_add_one id)]

structure Chain.Layout (c : Chain) : Prop where
  head : c.blockNumber = c.heightBefore c.nextSubmissionId
  start : ∀ id, id < c.nextSubmissionId →
    (c.batchMetadata id).startBlockNumber = c.heightBefore id + 1
  nonempty : ∀ id, id < c.nextSubmissionId → c.heightBefore id < c.heightBefore (id + 1)
  freshSubmission : ∀ id, c.nextSubmissionId ≤ id → c.submissions id = {}
  freshBatch : ∀ id, c.nextSubmissionId ≤ id → c.batchMetadata id = {}
  freshDeposit : ∀ b, c.blockNumber < b → c.blockDepositHash b = 0
  freshReg : ∀ b, c.blockNumber < b → c.blockChannelRegHash b = 0
  freshHash : ∀ b, c.blockNumber < b → c.blockHashChainAt b = 0

namespace Chain.Layout

variable {c : Chain}

variable {id id' last : Nat}

theorem strict (layout : c.Layout) (before : id < id') (live : id' ≤ c.nextSubmissionId) :
    c.heightBefore id < c.heightBefore id' := by
  induction id' with
  | zero => omega
  | succ id' ih =>
    have last := layout.nonempty id' (by omega)
    by_cases same : id = id'
    · subst same
      exact last
    · exact lt_trans (ih (by omega) (by omega)) last

theorem mono (layout : c.Layout) (before : id ≤ id') (live : id' ≤ c.nextSubmissionId) :
    c.heightBefore id ≤ c.heightBefore id' := by
  rcases Nat.lt_or_eq_of_le before with earlier | rfl
  · exact le_of_lt (layout.strict earlier live)
  · exact le_refl _

/-- At most one live submission ends at a height. -/
theorem end_inj (layout : c.Layout) (live : id < c.nextSubmissionId)
    (live' : id' < c.nextSubmissionId)
    (same : (c.batchMetadata id).endBlockNumber = (c.batchMetadata id').endBlockNumber) :
    id = id' := by
  rcases lt_trichotomy id id' with earlier | rfl | later
  · have := layout.strict (Nat.succ_lt_succ earlier) live'
    rw [heightBefore_succ, heightBefore_succ] at this
    omega
  · rfl
  · have := layout.strict (Nat.succ_lt_succ later) live
    rw [heightBefore_succ, heightBefore_succ] at this
    omega

theorem live_of_submission (layout : c.Layout) (used : c.submissions id ≠ {}) :
    id < c.nextSubmissionId := by
  by_contra past
  exact used (layout.freshSubmission id (le_of_not_gt past))

theorem live_of_commitment (layout : c.Layout) (found : (c.submissions id).commitment ≠ 0) :
    id < c.nextSubmissionId := by
  apply layout.live_of_submission
  intro fresh
  rw [fresh] at found
  exact found rfl

theorem live_of_finalized (layout : c.Layout) (finalized : (c.submissions id).finalized = true) :
    id < c.nextSubmissionId := by
  apply layout.live_of_submission
  intro fresh
  rw [fresh] at finalized
  cases finalized

/-- The newest batch spans exactly the heights since the one before it. -/
theorem last_blocks (layout : c.Layout) (next : c.nextSubmissionId = last + 1) :
    (c.batchMetadata last).blocks = c.blockNumber - c.heightBefore last ∧
    c.heightBefore last < c.blockNumber ∧
    (c.batchMetadata last).startBlockNumber = c.heightBefore last + 1 ∧
    (c.batchMetadata last).endBlockNumber = c.blockNumber := by
  have start := layout.start last (by omega)
  have head := layout.head
  have nonempty := layout.nonempty last (by omega)
  rw [next, heightBefore_succ] at head
  rw [heightBefore_succ] at nonempty
  refine ⟨?_, by omega, start, head.symm⟩
  rw [BatchMetadata.blocks, if_pos (by omega)]
  omega

/-- The layout speaks of the height maps, the submissions and their metadata only. -/
theorem congr {c' : Chain} (layout : c.Layout) (number : c'.blockNumber = c.blockNumber)
    (next : c'.nextSubmissionId = c.nextSubmissionId)
    (batches : c'.batchMetadata = c.batchMetadata)
    (fresh : ∀ id, c.nextSubmissionId ≤ id → c'.submissions id = c.submissions id)
    (deposits : c'.blockDepositHash = c.blockDepositHash)
    (regs : c'.blockChannelRegHash = c.blockChannelRegHash)
    (hashes : c'.blockHashChainAt = c.blockHashChainAt) : c'.Layout := by
  have heights (id : Nat) : c'.heightBefore id = c.heightBefore id :=
    heightBefore_congr (fun k _ => by rw [batches])
  constructor
  · rw [number, heights, next, layout.head]
  · intro id live
    rw [heights, batches, layout.start id (by omega)]
  · intro id live
    rw [heights, heights]
    exact layout.nonempty id (by omega)
  · intro id past
    rw [fresh id (by omega), layout.freshSubmission id (by omega)]
  · intro id past
    rw [batches, layout.freshBatch id (by omega)]
  · intro b above
    rw [deposits, layout.freshDeposit b (by omega)]
  · intro b above
    rw [regs, layout.freshReg b (by omega)]
  · intro b above
    rw [hashes, layout.freshHash b (by omega)]

/-! ## Retracting the newest batch -/

/-- `retract`, on a laid-out chain, without the branches for empty metadata. -/
theorem retract_eq (layout : c.Layout) (next : c.nextSubmissionId = last + 1) :
    retract c =
      { c with
        blockHashChain := (c.batchMetadata last).previousBlockHash
        blockDepositHash := fun b => if c.heightBefore last < b then 0 else c.blockDepositHash b
        blockChannelRegHash := fun b =>
          if c.heightBefore last < b then 0 else c.blockChannelRegHash b
        blockHashChainAt := fun b => if c.heightBefore last < b then 0 else c.blockHashChainAt b
        blockNumber := c.heightBefore last
        postingRound := (c.batchMetadata last).postingRoundBefore
        depositHashChain := (c.batchMetadata last).previousDepositHashChain
        channelRegHashChain := (c.batchMetadata last).previousChannelRegHashChain
        processedDepositCount := (c.batchMetadata last).processedDepositCountBefore
        submissions := update c.submissions last {}
        batchMetadata := update c.batchMetadata last {}
        nextSubmissionId := last } := by
  obtain ⟨blocks, grew, start, stop⟩ := layout.last_blocks next
  -- past the head nothing is stored, so clearing the batch clears everything above it
  have cleared (f : Nat → Bytes32) (fresh : ∀ b, c.blockNumber < b → f b = 0) :
      (fun b => if c.heightBefore last + 1 ≤ b ∧
          b < c.heightBefore last + 1 + (c.blockNumber - c.heightBefore last)
        then 0 else f b) =
      fun b => if c.heightBefore last < b then 0 else f b := by
    funext b
    by_cases above : c.blockNumber < b
    · simp [fresh b above]
    · congr 1
      apply propext
      omega
  have spans : ¬ ((c.batchMetadata last).endBlockNumber = 0 ∧
      (c.batchMetadata last).startBlockNumber = 0) := by omega
  have first : ¬ (c.batchMetadata last).startBlockNumber = 0 := by omega
  simp only [retract, next, Nat.add_sub_cancel, deleteSubmission, rolledBack, if_neg spans,
    clearBlocks, if_neg first, blocks]
  simp only [start, cleared _ layout.freshDeposit, cleared _ layout.freshReg,
    cleared _ layout.freshHash, Nat.add_sub_cancel]

theorem retract (layout : c.Layout) (next : c.nextSubmissionId = last + 1) :
    (retract c).Layout := by
  rw [layout.retract_eq next]
  have kept {id : Nat} (earlier : id ≤ last) (c' : Chain)
      (batches : c'.batchMetadata = update c.batchMetadata last {}) :
      c'.heightBefore id = c.heightBefore id := by
    apply heightBefore_congr
    intro k before
    rw [batches, update_of_ne (by omega)]
  constructor
  · exact (kept (le_refl last) _ rfl).symm
  · intro id live
    have earlier : id < last := live
    rw [kept (le_of_lt earlier) _ rfl]
    simp only [update_of_ne (ne_of_lt earlier)]
    exact layout.start id (by omega)
  · intro id live
    have earlier : id < last := live
    rw [kept (le_of_lt earlier) _ rfl, kept earlier _ rfl]
    exact layout.nonempty id (by omega)
  · intro id past
    have from_ : last ≤ id := past
    by_cases same : id = last
    · subst same
      simp
    · simp only [update_of_ne same]
      exact layout.freshSubmission id (by omega)
  · intro id past
    have from_ : last ≤ id := past
    by_cases same : id = last
    · subst same
      simp
    · simp only [update_of_ne same]
      exact layout.freshBatch id (by omega)
  · intro b above
    exact if_pos above
  · intro b above
    exact if_pos above
  · intro b above
    exact if_pos above

end Chain.Layout

@[simp] theorem retract_next (c : Chain) :
    (retract c).nextSubmissionId = c.nextSubmissionId - 1 := rfl

/-- What one retraction keeps while it stays at `target` or above, a truncation to
    `target` keeps. -/
theorem retract_iterate {P : Chain → Prop} (target : Nat)
    (keep : ∀ c, P c → target < c.nextSubmissionId → P (retract c)) {n : Nat} {c : Chain}
    (start : P c) (next : c.nextSubmissionId = target + n) :
    P (retract^[n] c) ∧ (retract^[n] c).nextSubmissionId = target := by
  induction n generalizing c with
  | zero => exact ⟨start, next⟩
  | succ n ih =>
    rw [iterate_succ_apply]
    exact ih (keep c start (by omega)) (by rw [retract_next]; omega)

@[simp] theorem retract_finalizedHeight (c : Chain) :
    (retract c).latestFinalizedBlockNumber = c.latestFinalizedBlockNumber := by
  simp only [retract, deleteSubmission]
  unfold rolledBack
  dsimp only
  split
  · rfl
  · rfl

/-- Submissions and metadata below the newest are kept by a retraction. -/
theorem retract_earlier (c : Chain) (earlier : id < c.nextSubmissionId - 1) :
    (retract c).submissions id = c.submissions id ∧
    (retract c).batchMetadata id = c.batchMetadata id := by
  have other : id ≠ c.nextSubmissionId - 1 := ne_of_lt earlier
  simp only [retract, deleteSubmission, update_of_ne other]
  unfold rolledBack
  dsimp only
  split
  · exact ⟨rfl, rfl⟩
  · exact ⟨rfl, rfl⟩

/-- A truncation to `target` keeps everything recorded below `target`. -/
theorem retract_iterate_earlier {target n : Nat} {c : Chain}
    (next : c.nextSubmissionId = target + n) (earlier : id < target) :
    (retract^[n] c).submissions id = c.submissions id ∧
    (retract^[n] c).batchMetadata id = c.batchMetadata id := by
  refine (retract_iterate (P := fun d => d.submissions id = c.submissions id ∧
    d.batchMetadata id = c.batchMetadata id) target ?_ ⟨rfl, rfl⟩ next).1
  intro d same above
  obtain ⟨submission, batch⟩ := retract_earlier d (show id < d.nextSubmissionId - 1 by omega)
  exact ⟨submission.trans same.1, batch.trans same.2⟩

theorem retract_iterate_finalizedHeight (n : Nat) (c : Chain) :
    (retract^[n] c).latestFinalizedBlockNumber = c.latestFinalizedBlockNumber := by
  induction n generalizing c with
  | zero => rfl
  | succ n ih => rw [iterate_succ_apply, ih, retract_finalizedHeight]

theorem Truncates.layout {σ : Type} {sat : Satellite σ} {cfg : Config} {target : Nat}
    {forfeit : Bool} {t : Truncation σ} {s s' : Rollup} {j j' : σ}
    (truncates : Truncates cfg sat target forfeit t s s' j j') (layout : s.chain.Layout)
    (live : target ≤ s.chain.nextSubmissionId) : s'.chain.Layout := by
  rw [truncates.chain_retract live]
  refine (retract_iterate (P := Chain.Layout) target ?_ layout (by omega)).1
  intro c laid above
  exact laid.retract (show c.nextSubmissionId = c.nextSubmissionId - 1 + 1 by omega)

section
variable [Keccak] {σ : Type} {sat : Satellite σ} {cfg : Config} {env : Env} {args : PostArgs}
  {cursor : PostCursor σ} {submission : Submission} {s s' : Rollup} {j j' : σ}

/-! ## Posting a batch -/

theorem Posts.layout (posts : Posts cfg sat env args cursor submission s s' j j')
    (layout : s.chain.Layout) : s'.chain.Layout := by
  have grew := posts.height_lt
  have loop := posts.loop
  simp only [startCursor] at loop
  rw [posts.chain_eq]
  generalize s.intake.batchCheckpoint args.expectedPendingChains = checkpoint
  have kept (id : Nat) (earlier : id ≤ s.chain.nextSubmissionId) :
      (postedChain checkpoint submission cursor s.chain).heightBefore id =
        s.chain.heightBefore id := by
    apply Chain.heightBefore_congr
    intro k before
    simp only [postedChain]
    rw [update_of_ne (by omega)]
  constructor
  · simp [postedChain, postedMetadata]
  · intro id live
    have upTo : id ≤ s.chain.nextSubmissionId := Nat.le_of_lt_succ live
    rw [kept id upTo]
    by_cases last : id = s.chain.nextSubmissionId
    · subst last
      simp [postedChain, postedMetadata, layout.head]
    · simp only [postedChain, update_of_ne last]
      exact layout.start id (by omega)
  · intro id live
    have upTo : id ≤ s.chain.nextSubmissionId := Nat.le_of_lt_succ live
    rw [kept id upTo]
    by_cases last : id = s.chain.nextSubmissionId
    · subst last
      simp [postedChain, postedMetadata]
      rw [← layout.head]
      exact grew
    · rw [kept (id + 1) (by omega)]
      exact layout.nonempty id (by omega)
  · intro id past
    have beyond : s.chain.nextSubmissionId + 1 ≤ id := past
    simp only [postedChain, update_of_ne (Nat.ne_of_gt beyond)]
    exact layout.freshSubmission id (by omega)
  · intro id past
    have beyond : s.chain.nextSubmissionId + 1 ≤ id := past
    simp only [postedChain, update_of_ne (Nat.ne_of_gt beyond)]
    exact layout.freshBatch id (by omega)
  · intro b above
    have beyond : cursor.currentBlockNumber < b := above
    simp only [postedChain]
    rw [loop.deposits b (.inr beyond)]
    exact layout.freshDeposit b (by omega)
  · intro b above
    have beyond : cursor.currentBlockNumber < b := above
    simp only [postedChain]
    rw [loop.regs b (.inr beyond)]
    exact layout.freshReg b (by omega)
  · intro b above
    have beyond : cursor.currentBlockNumber < b := above
    simp only [postedChain, update_of_ne (Nat.ne_of_gt beyond)]
    exact layout.freshHash b (by omega)

/-! ## Runs -/

theorem ChainEffect.layout {action : ChainAction}
    (effect : ChainEffect cfg sat env action s s' j j') (layout : s.chain.Layout) :
    s'.chain.Layout := by
  cases effect with
  | idle chain => rwa [chain]
  | bind chain => rwa [chain]
  | release => exact layout
  | post posts => exact posts.layout layout
  | finalize checked =>
    have live := layout.live_of_commitment (checkFinalize_ok checked).1
    refine layout.congr rfl rfl rfl ?_ rfl rfl rfl
    intro id past
    simp only [markFinalized]
    exact update_of_ne (by omega) _ _
  | truncate found _ truncates =>
    exact truncates.layout layout (le_of_lt (layout.live_of_commitment found))

theorem initial_layout (cfg : Config) : (initial cfg).chain.Layout := by
  constructor
  · rfl
  · intro id live
    exact absurd live (Nat.not_lt_zero id)
  · intro id live
    exact absurd live (Nat.not_lt_zero id)
  all_goals
    intros
    rfl

end

end Intmax.Rollup
