import Intmax.Rollup.Effects

/-! # Batches: what a post adds and what a truncation takes back

The sub-block loop and the delete loop each split into a part that moves the
chain and a part that calls the satellite.  On the chain, removing the newest
batch is a function `retract`, and a truncation is that function iterated; the
invariants of later modules need one lemma about `postedChain` and one about
`retract` instead of two loops.
-/

namespace Intmax.Rollup

open Checked Function Truncation

variable {σ : Type} {sat : Satellite σ} {exit : Address}

/-! ## The sub-block loop -/

/-- The satellite's half of the sub-block loop. -/
def recordPosts (sat : Satellite σ) (exit : Address) : List SubBlock → Nat → σ →
    Except Revert σ
  | [], _, j => .ok j
  | block :: rest, height, j => do
    let j ← recordSigned sat exit block (height + 1) j
    recordPosts sat exit rest (height + 1) j

section
variable [Keccak]

variable {c : PostCursor σ}

variable {chains : BatchChains} {c' : PostCursor σ} {env : Env} {args : PostArgs}
  {submission : Submission} {s s' : Rollup}

theorem postSubBlock_ok {isLast : Bool} {block : SubBlock}
    (h : postSubBlock sat exit chains isLast block c = .ok c') :
    c'.currentBlockNumber = c.currentBlockNumber + 1 ∧
    recordSigned sat exit block (c.currentBlockNumber + 1) c.satellite = .ok c'.satellite ∧
    ∃ depositHash regHash,
      c'.blockDepositHash =
        update c.blockDepositHash (c.currentBlockNumber + 1) depositHash ∧
      c'.blockChannelRegHash =
        update c.blockChannelRegHash (c.currentBlockNumber + 1) regHash := by
  simp only [postSubBlock, bind_ok, add_ok_iff, pure_ok] at h
  obtain ⟨_, ⟨-, rfl⟩, j, recorded, rfl⟩ := h
  exact ⟨rfl, recorded, _, _, rfl, rfl⟩

/-- What the loop has done when it ends: one height a sub-block, one call a signed one,
    and no write outside the heights it went through. -/
structure LoopEffect (sat : Satellite σ) (exit : Address) (blocks : List SubBlock)
    (c c' : PostCursor σ) : Prop where
  height : c'.currentBlockNumber = c.currentBlockNumber + blocks.length
  recorded : recordPosts sat exit blocks c.currentBlockNumber c.satellite = .ok c'.satellite
  deposits : ∀ b, b ≤ c.currentBlockNumber ∨ c'.currentBlockNumber < b →
    c'.blockDepositHash b = c.blockDepositHash b
  regs : ∀ b, b ≤ c.currentBlockNumber ∨ c'.currentBlockNumber < b →
    c'.blockChannelRegHash b = c.blockChannelRegHash b

theorem postSubBlocks_ok {blocks : List SubBlock}
    (h : postSubBlocks sat exit chains blocks c = .ok c') : LoopEffect sat exit blocks c c' := by
  induction blocks generalizing c with
  | nil =>
    cases h
    exact ⟨rfl, rfl, fun _ _ => rfl, fun _ _ => rfl⟩
  | cons block rest ih =>
    obtain ⟨c₁, first, later⟩ := bind_ok.mp h
    obtain ⟨height, recorded, depositHash, regHash, deposits, regs⟩ := postSubBlock_ok first
    have tail := ih later
    have total : c'.currentBlockNumber = c.currentBlockNumber + (block :: rest).length := by
      have := tail.height
      simp
      omega
    -- a height outside the whole loop is outside its tail and is not the first one
    have outside {b : Nat} (out : b ≤ c.currentBlockNumber ∨ c'.currentBlockNumber < b) :
        (b ≤ c₁.currentBlockNumber ∨ c'.currentBlockNumber < b) ∧
        b ≠ c.currentBlockNumber + 1 := by
      simp at total
      omega
    refine ⟨total, ?_, ?_, ?_⟩
    · simp [recordPosts]
      refine ⟨c₁.satellite, recorded, ?_⟩
      rw [← height]
      exact tail.recorded
    · intro b out
      obtain ⟨later, fresh⟩ := outside out
      rw [tail.deposits b later, deposits, update_of_ne fresh]
    · intro b out
      obtain ⟨later, fresh⟩ := outside out
      rw [tail.regs b later, regs, update_of_ne fresh]

theorem Posts.loop {cfg : Config} {j j' : σ}
    (posts : Posts cfg sat env args c submission s s' j j') :
    LoopEffect sat s.roles.channelExitMaterializer args.subBlocks (startCursor s.chain j) c :=
  postSubBlocks_ok posts.ran

/-- A batch has at least one sub-block, so a post moves the head. -/
theorem Posts.height_lt {cfg : Config} {j j' : σ}
    (posts : Posts cfg sat env args c submission s s' j j') :
    s.chain.blockNumber < c.currentBlockNumber := by
  have height := posts.loop.height
  have nonempty := List.length_pos_of_ne_nil posts.nonempty
  simp only [startCursor] at height
  omega

end

/-! ## The delete loop -/

/-- The satellite's half of the delete loop. -/
def rollbackPosts (sat : Satellite σ) (exit : Address) (start : Nat) : Nat → σ →
    Except Revert σ
  | 0, j => .ok j
  | n + 1, j => do
    let j ← rollbackSigned sat exit (start + n) j
    rollbackPosts sat exit start n j

/-- The block maps with the `n` heights from `start` on deleted. -/
def clearBlocks (start n : Nat) (s : Chain) : Chain :=
  { s with
    blockDepositHash := fun b => if start ≤ b ∧ b < start + n then 0 else s.blockDepositHash b
    blockChannelRegHash := fun b =>
      if start ≤ b ∧ b < start + n then 0 else s.blockChannelRegHash b
    blockHashChainAt := fun b => if start ≤ b ∧ b < start + n then 0 else s.blockHashChainAt b }

theorem clear_update {α : Type} (f : Nat → α) (start n : Nat) (zero : α) :
    (fun b => if start ≤ b ∧ b < start + n then zero
      else update f (start + n) zero b) =
    fun b => if start ≤ b ∧ b < start + (n + 1) then zero else f b := by
  funext b
  by_cases last : b = start + n
  · subst last
    simp
  · rw [update_of_ne last]
    congr 1
    apply propext
    omega

variable {j j' : σ} {submissionId : Nat} {t t' : Truncation σ} {offender : Address}
  {forfeit : Bool}

variable {n target : Nat} {s s' : Chain}

theorem rollbackBlocks_ok {start : Nat}
    (h : rollbackBlocks sat exit start n (s, j) = .ok (s', j')) :
    s' = clearBlocks start n s ∧ rollbackPosts sat exit start n j = .ok j' := by
  induction n generalizing s j with
  | zero =>
    cases h
    refine ⟨?_, rfl⟩
    have none_ (b : Nat) : ¬ (start ≤ b ∧ b < start + 0) := by omega
    simp only [clearBlocks, none_, if_false]
  | succ n ih =>
    obtain ⟨j₁, called, rest⟩ := bind_ok.mp h
    obtain ⟨rfl, recorded⟩ := ih rest
    refine ⟨?_, ?_⟩
    · simp only [clearBlocks, deleteBlock, clear_update]
    · simp [rollbackPosts]
      exact ⟨j₁, called, recorded⟩

/-- The heights a batch's metadata spans, as the rollback counts them. -/
def BatchMetadata.blocks (m : BatchMetadata) : Nat :=
  if m.startBlockNumber ≤ m.endBlockNumber ∧ m.endBlockNumber ≠ 0 then
    m.endBlockNumber - m.startBlockNumber + 1
  else 0

/-- The chain after `rollbackBatch`. -/
def rolledBack (submissionId : Nat) (s : Chain) : Chain :=
  let m := s.batchMetadata submissionId
  if m.endBlockNumber = 0 ∧ m.startBlockNumber = 0 then s
  else
    clearBlocks m.startBlockNumber m.blocks
      { s with
        blockHashChain := m.previousBlockHash
        blockNumber := if m.startBlockNumber = 0 then 0 else m.startBlockNumber - 1
        depositHashChain := m.previousDepositHashChain
        channelRegHashChain := m.previousChannelRegHashChain
        postingRound := m.postingRoundBefore
        processedDepositCount := m.processedDepositCountBefore }

/-- The satellite after `rollbackBatch`. -/
def rollbackBatchPosts (sat : Satellite σ) (exit : Address) (m : BatchMetadata) (j : σ) :
    Except Revert σ :=
  if m.endBlockNumber = 0 ∧ m.startBlockNumber = 0 then .ok j
  else rollbackPosts sat exit m.startBlockNumber m.blocks j

theorem rollbackBatch_ok (h : rollbackBatch sat exit submissionId s j = .ok (s', j')) :
    s' = rolledBack submissionId s ∧
    rollbackBatchPosts sat exit (s.batchMetadata submissionId) j = .ok j' := by
  simp only [rollbackBatch, ite_ok, bind_ok, pure_ok] at h
  rcases h with ⟨untouched, same⟩ | ⟨spans, ⟨s₁, j₁⟩, deleted, same⟩
  · cases same
    simp [rolledBack, rollbackBatchPosts, untouched]
  · cases same
    obtain ⟨rfl, called⟩ := rollbackBlocks_ok deleted
    refine ⟨?_, ?_⟩
    · rw [rolledBack, if_neg spans]
      rfl
    · rw [rollbackBatchPosts, if_neg spans]
      exact called

/-! ## One removal -/

/-- One post of `producer` is uncounted, and no release is. -/
structure Uncounts (producer : Address) (bonds bonds' : Address → Bond) : Prop where
  counted : 1 ≤ (bonds producer).posted
  posted : (bonds' producer).posted = (bonds producer).posted - 1
  others : ∀ q, q ≠ producer → (bonds' q).posted = (bonds q).posted
  released : ∀ q, (bonds' q).released = (bonds q).released

theorem Uncounts.of_update {producer : Address} {bonds : Address → Bond} {bond : Bond}
    (counted : 1 ≤ (bonds producer).posted) (posted : bond.posted = (bonds producer).posted - 1)
    (released : bond.released = (bonds producer).released) :
    Uncounts producer bonds (update bonds producer bond) := by
  refine ⟨counted, by simp [posted], ?_, ?_⟩
  · intro q other
    rw [update_of_ne other]
  · intro q
    by_cases same : q = producer
    · subst same
      simp [released]
    · rw [update_of_ne same]

variable {cfg : Config}

theorem Truncation.book_frame {isOffender : Bool} {taken : Nat}
    (h : t.book isOffender taken = .ok t') :
    t'.chain = t.chain ∧ t'.satellite = t.satellite ∧ t'.bonds = t.bonds := by
  cases isOffender with
  | true =>
    simp [book] at h
    obtain ⟨-, rfl⟩ := h
    exact ⟨rfl, rfl, rfl⟩
  | false =>
    simp [book] at h
    obtain ⟨-, rfl⟩ := h
    exact ⟨rfl, rfl, rfl⟩

theorem Truncation.chargeRemoval_ok {submitter : Address}
    (h : t.chargeRemoval cfg offender forfeit submitter = .ok t') :
    t'.chain = t.chain ∧ t'.satellite = t.satellite ∧ Uncounts submitter t.bonds t'.bonds := by
  simp only [chargeRemoval, bind_ok, sub_ok_iff] at h
  obtain ⟨posted, ⟨counted, rfl⟩, charged⟩ := h
  cases forfeit with
  | false =>
    cases charged
    exact ⟨rfl, rfl, .of_update counted rfl rfl⟩
  | true =>
    obtain ⟨chain, satellite, bonds⟩ := book_frame charged
    refine ⟨chain, satellite, ?_⟩
    rw [bonds]
    exact .of_update counted rfl rfl

/-- One pass of the truncation loop. -/
structure Removes (sat : Satellite σ) (exit : Address) (submissionId : Nat)
    (t t' : Truncation σ) : Prop where
  unfinalized : (t.chain.submissions submissionId).finalized = false
  chain_eq : t'.chain = deleteSubmission submissionId (rolledBack submissionId t.chain)
  called : rollbackBatchPosts sat exit (t.chain.batchMetadata submissionId) t.satellite =
    .ok t'.satellite
  uncounts : Uncounts (t.chain.submissions submissionId).submitter t.bonds t'.bonds

theorem truncateOne_ok (h : truncateOne cfg sat exit offender forfeit submissionId t = .ok t') :
    Removes sat exit submissionId t t' := by
  simp only [truncateOne, bind_ok, revertIf_ok, exists_unit, pure_ok] at h
  obtain ⟨unfinalized, charged, charge, ⟨chain, satellite⟩, rolled, rfl⟩ := h
  obtain ⟨sameChain, sameSatellite, uncounts⟩ := chargeRemoval_ok charge
  rw [sameChain, sameSatellite] at rolled
  obtain ⟨rfl, called⟩ := rollbackBatch_ok rolled
  exact ⟨by simpa using unfinalized, rfl, called, uncounts⟩

/-! ## The chain after a truncation -/

/-- The chain without its newest submission. -/
def retract (c : Chain) : Chain :=
  { deleteSubmission (c.nextSubmissionId - 1) (rolledBack (c.nextSubmissionId - 1) c) with
    nextSubmissionId := c.nextSubmissionId - 1 }

/-- The chain under another id counter. -/
def Chain.withNext (c : Chain) (next : Nat) : Chain := { c with nextSubmissionId := next }

theorem rolledBack_next (submissionId next : Nat) (c : Chain) :
    rolledBack submissionId (c.withNext next) = (rolledBack submissionId c).withNext next := by
  unfold rolledBack
  dsimp only [Chain.withNext]
  split <;> rfl

/-- The id counter is only written after the loop, so a pass is followed under the counter
    it would have. -/
theorem Removes.retract_chain (removes : Removes sat exit submissionId t t') :
    t'.chain.withNext submissionId = retract (t.chain.withNext (submissionId + 1)) := by
  have counter : (t.chain.withNext (submissionId + 1)).nextSubmissionId - 1 = submissionId := rfl
  rw [removes.chain_eq, retract, counter, rolledBack_next]
  rfl

theorem truncateLoop_chain (h : truncateLoop cfg sat exit offender forfeit target n t = .ok t') :
    t'.chain.withNext target = retract^[n] (t.chain.withNext (target + n)) := by
  induction n generalizing t with
  | zero =>
    cases h
    rfl
  | succ n ih =>
    obtain ⟨t₁, first, rest⟩ := bind_ok.mp h
    rw [ih rest, iterate_succ_apply, (truncateOne_ok first).retract_chain]
    rfl

theorem Truncates.chain_retract {s s' : Rollup}
    (truncates : Truncates cfg sat target forfeit t s s' j j')
    (live : target ≤ s.chain.nextSubmissionId) :
    s'.chain = retract^[s.chain.nextSubmissionId - target] s.chain := by
  rw [truncates.chain_eq, ← Chain.withNext, truncateLoop_chain truncates.loop,
    Nat.add_sub_cancel' live]
  rfl

end Intmax.Rollup
