import Intmax.Rollup.Preimages
import Intmax.Rollup.Layout

/-! # Pending-chain checkpoints

Deposits and registrations go through a sequence of pairs of chains, each recorded
under its pin; a post consumes one of them.  With the whole history of the intake
as ghost state, every recorded checkpoint is a pair that was live once, and the
pair consumed by each live batch is at or after the one before it in both counts.
-/

namespace Intmax.Rollup

open Checked Transition Function List Intake RegisterChannelArgs

/-! ## The intake of a run -/

/-- The deposit records of the intake, oldest first. -/
def Intake.deposits (i : Intake) : List DepositRecord :=
  (List.range i.depositCount).map i.depositRecords

/-- The registration an event adds, if any. -/
def Event.registered (e : Event) : List ChannelRegistration :=
  match e.call with
  | .registerChannel args => [args.registration]
  | _ => []

/-- The registrations accepted in a run, oldest first. -/
def registrations (events : List Event) : List ChannelRegistration :=
  events.flatMap Event.registered

@[simp] theorem Intake.length_deposits (i : Intake) : i.deposits.length = i.depositCount := by
  simp [deposits]

/-! ## Processed pairs -/

/-- What the chain had taken in when it reached some batch. -/
structure ProcessedPair where
  depositHashChain : Bytes32
  channelRegHashChain : Bytes32
  processedDepositCount : Nat

/-- The processed pair before live batch `k`; past the last one, the current pair. -/
def Chain.processedAt (c : Chain) (k : Nat) : ProcessedPair :=
  if k < c.nextSubmissionId then
    { depositHashChain := (c.batchMetadata k).previousDepositHashChain
      channelRegHashChain := (c.batchMetadata k).previousChannelRegHashChain
      processedDepositCount := (c.batchMetadata k).processedDepositCountBefore }
  else
    { depositHashChain := c.depositHashChain
      channelRegHashChain := c.channelRegHashChain
      processedDepositCount := c.processedDepositCount }

theorem Chain.processedAt_next (c : Chain) :
    c.processedAt c.nextSubmissionId =
      ⟨c.depositHashChain, c.channelRegHashChain, c.processedDepositCount⟩ := by
  simp [processedAt]

theorem processedAt_retract {c : Chain} (layout : c.Layout) {last k : Nat}
    (next : c.nextSubmissionId = last + 1) (upTo : k ≤ last) :
    (retract c).processedAt k = c.processedAt k := by
  rw [layout.retract_eq next]
  unfold Chain.processedAt
  rw [if_pos (show k < c.nextSubmissionId by omega)]
  by_cases earlier : k < last
  · rw [if_pos earlier]
    simp only [update_of_ne (ne_of_lt earlier)]
  · have same : k = last := by omega
    subst same
    rw [if_neg (lt_irrefl k)]

theorem processedAt_truncate {c : Chain} (layout : c.Layout) {target n k : Nat}
    (next : c.nextSubmissionId = target + n) (upTo : k ≤ target) :
    (retract^[n] c).processedAt k = c.processedAt k := by
  refine (retract_iterate
    (P := fun d => d.Layout ∧ d.processedAt k = c.processedAt k) target ?_
      ⟨layout, rfl⟩ next).1.2
  intro d ⟨laid, same⟩ above
  have next' : d.nextSubmissionId = d.nextSubmissionId - 1 + 1 := by omega
  exact ⟨laid.retract next', (processedAt_retract laid next' (by omega)).trans same⟩

section
variable [Keccak] {σ : Type}

/-- What a completed call does to the intake. -/
inductive IntakeMove : List ChannelRegistration → Intake → Intake → Prop
  | stay (i : Intake) : IntakeMove [] i i
  | deposit {record : DepositRecord} {i i' : Intake} :
      i.recordDeposit record = .ok i' → IntakeMove [] i i'
  | registration {reg : ChannelRegistration} {i i' : Intake} :
      reg.members.length ≤ maxChannelMembers → i.recordRegistration reg = .ok i' →
      IntakeMove [reg] i i'

theorem IntakeMove.of_eq {i i' : Intake} (same : i' = i) : IntakeMove [] i i' := by
  subst same
  exact .stay i'

theorem dispatch_intake {cfg : Config} {sat : Satellite σ} {env : Env} {world : External}
    {call : Call} {out : Outcome} {s s' : Rollup} {j j' : σ}
    (h : dispatch cfg sat env world call s j = .ok (out, s', j')) :
    IntakeMove (Event.registered ⟨env, call, out⟩) s.intake s'.intake := by
  cases call with
  | deposit args =>
    obtain ⟨-, -, intake, recorded, rfl⟩ | ⟨-, -, -, balBefore, -, rfl⟩ :=
      deposit_ok (quiet_ok h).1
    · exact .deposit recorded
    · exact .stay _
  | registerChannel args =>
    obtain ⟨-, -, -, short, intake, recorded, rfl⟩ := registerChannel_ok (quiet_ok h).1
    refine .registration ?_ recorded
    simpa [registration, members] using short
  | resume =>
    obtain ⟨_, -, h⟩ := bind_ok.mp h
    rcases resume_ok (quiet_ok h).1 with ⟨-, rfl⟩ | ⟨token, record, balBefore,
      -, finished⟩ | ⟨token, recipient, amount, balanceBefore, -, finished⟩
    · exact .stay _
    · obtain ⟨intake, recorded, rfl⟩ := finishTokenDeposit_ok finished
      exact .deposit recorded
    · cases finishTokenPayout_ok finished
      exact .stay _
  | _ => exact .of_eq ((dispatch_keeps h).intake rfl)

theorem Step.intake {cfg : Config} {e : Event} {s s' : Rollup} (step : Step cfg s e s') :
    IntakeMove e.registered s.intake s'.intake := by
  obtain ⟨σ, sat, world, j, j', ran⟩ := step
  have moved := dispatch_intake ran
  rw [receive_intake] at moved
  exact moved

/-! ## Recorded pairs -/

/-- The checkpoint of the pair that has taken in the first deposits and registrations. -/
def entryAt (deposits : List DepositRecord) (regs : List ChannelRegistration) (p : Nat × Nat) :
    PendingChainsCheckpoint :=
  { depositHashChain := depositChain (deposits.take p.1)
    channelRegHashChain := regChain (regs.take p.2)
    packedCounts := packCounts p.1 p.2 }

/-- The intake against its history: `regs` are the registrations so far and `lives` the
    pairs of counts it went through. -/
structure Recorded (regs : List ChannelRegistration) (lives : List (Nat × Nat)) (i : Intake) :
    Prop where
  depositBound : i.depositCount < 2 ^ 64
  regCount : i.channelRegCount = regs.length
  regBound : regs.length < 2 ^ 64
  depositHead : i.pendingDepositHashChain = depositChain i.deposits
  regHead : i.pendingChannelRegHashChain = regChain regs
  short : ∀ reg ∈ regs, reg.members.length ≤ maxChannelMembers
  current : (i.depositCount, regs.length) ∈ lives
  within : ∀ p ∈ lives, p.1 ≤ i.depositCount ∧ p.2 ≤ regs.length
  known : ∀ pin, (i.pendingChainsCheckpoints pin).packedCounts ≠ 0 →
    ∃ p ∈ lives, pin = pinAt i.deposits regs p ∧
      i.pendingChainsCheckpoints pin = entryAt i.deposits regs p

theorem pinAt_append {deposits deposits' : List DepositRecord}
    {regs regs' : List ChannelRegistration} {p : Nat × Nat}
    (within : p.1 ≤ deposits.length ∧ p.2 ≤ regs.length) :
    pinAt (deposits ++ deposits') (regs ++ regs') p = pinAt deposits regs p := by
  simp only [pinAt, take_append_of_le_length within.1, take_append_of_le_length within.2]

theorem entryAt_append {deposits deposits' : List DepositRecord}
    {regs regs' : List ChannelRegistration} {p : Nat × Nat}
    (within : p.1 ≤ deposits.length ∧ p.2 ≤ regs.length) :
    entryAt (deposits ++ deposits') (regs ++ regs') p = entryAt deposits regs p := by
  simp only [entryAt, take_append_of_le_length within.1, take_append_of_le_length within.2]

/-- The intake after a move: what was appended, and the checkpoint written for its pair. -/
theorem IntakeMove.appends {added : List ChannelRegistration} {i i' : Intake}
    (move : IntakeMove added i i') :
    (i' = i ∧ added = []) ∨
    ∃ deposited, i'.deposits = i.deposits ++ deposited ∧
      i'.depositCount = i.depositCount + deposited.length ∧
      i'.channelRegCount = i.channelRegCount + added.length ∧
      i'.pendingDepositHashChain = deposited.foldl computeDepositHash i.pendingDepositHashChain ∧
      i'.pendingChannelRegHashChain = added.foldl channelRegHash i.pendingChannelRegHashChain ∧
      (0 < deposited.length → i'.depositCount < 2 ^ 64) ∧
      (0 < added.length → i'.channelRegCount < 2 ^ 64) ∧
      (∀ reg ∈ added, reg.members.length ≤ maxChannelMembers) ∧
      i'.pendingChainsCheckpoints = update i.pendingChainsCheckpoints
        (pendingChainsPin i'.pendingDepositHashChain i'.pendingChannelRegHashChain)
        ⟨i'.pendingDepositHashChain, i'.pendingChannelRegHashChain,
          packCounts i'.depositCount i'.channelRegCount⟩ := by
  cases move with
  | stay => exact .inl ⟨rfl, rfl⟩
  | @deposit record i i' recorded =>
    obtain ⟨bound, rfl⟩ := recordDeposit_ok recorded
    refine .inr ⟨[record], ?_, rfl, rfl, rfl, rfl, fun _ => bound, ?_, ?_, rfl⟩
    · -- earlier records are untouched and the new one is written past them
      simp only [deposits, recordPendingChainsCheckpoint, range_succ,
        map_append, map_singleton, update_self, append_cancel_right_eq]
      apply map_congr_left
      intro k earlier
      exact update_of_ne (ne_of_lt (mem_range.mp earlier)) _ _
    · intro none_
      simp at none_
    · intro reg none_
      cases none_
  | @registration reg i i' short recorded =>
    obtain ⟨bound, rfl⟩ := recordRegistration_ok recorded
    refine .inr ⟨[], ?_, rfl, rfl, rfl, rfl, ?_, fun _ => bound, ?_, rfl⟩
    · rw [append_nil]
      rfl
    · intro none_
      simp at none_
    · intro reg' member
      rw [mem_singleton.mp member]
      exact short

/-- Every pair of the history still has its checkpoint. -/
def Kept (regs : List ChannelRegistration) (lives : List (Nat × Nat)) (i : Intake) : Prop :=
  ∀ p ∈ lives, i.pendingChainsCheckpoints (pinAt i.deposits regs p) = entryAt i.deposits regs p

/-- The live pair, as the pair of the full history. -/
theorem pinAt_full {deposits : List DepositRecord} {regs : List ChannelRegistration} :
    pinAt deposits regs (deposits.length, regs.length) =
      pendingChainsPin (depositChain deposits) (regChain regs) := by
  simp [pinAt]

theorem entryAt_full {deposits : List DepositRecord} {regs : List ChannelRegistration} :
    entryAt deposits regs (deposits.length, regs.length) =
      ⟨depositChain deposits, regChain regs, packCounts deposits.length regs.length⟩ := by
  simp [entryAt]

section
variable {regs added : List ChannelRegistration} {lives : List (Nat × Nat)} {i i' : Intake}

theorem Recorded.move (recorded : Recorded regs lives i) (move : IntakeMove added i i') :
    Recorded (regs ++ added) (lives ++ [(i'.depositCount, (regs ++ added).length)]) i' := by
  rcases move.appends with ⟨rfl, rfl⟩ | ⟨deposited, deposits, count, regCount,
    depositHead, regHead, depositBound, regBound, short, written⟩
  · rw [append_nil]
    refine { recorded with current := by simp, within := ?_, known := ?_ }
    · intro p member
      rcases mem_append.mp member with old | new
      · exact recorded.within p old
      · rw [mem_singleton.mp new]
        exact ⟨le_refl _, le_refl _⟩
    · intro pin used
      obtain ⟨p, member, pinned, entry⟩ := recorded.known pin used
      exact ⟨p, mem_append_left _ member, pinned, entry⟩
  · have regLength : i'.channelRegCount = (regs ++ added).length := by
      rw [regCount, recorded.regCount, length_append]
    have depositHead' : i'.pendingDepositHashChain = depositChain i'.deposits := by
      rw [depositHead, recorded.depositHead, deposits]
      simp [depositChain, HashChain.head]
    have regHead' : i'.pendingChannelRegHashChain = regChain (regs ++ added) := by
      rw [regHead, recorded.regHead]
      simp [regChain, HashChain.head]
    have within (p : Nat × Nat) (old : p ∈ lives) :
        p.1 ≤ i.deposits.length ∧ p.2 ≤ regs.length := by
      rw [length_deposits]
      exact recorded.within p old
    constructor
    · by_cases none_ : deposited.length = 0
      · have := recorded.depositBound
        omega
      · exact depositBound (pos_of_ne_zero none_)
    · exact regLength
    · rw [← regLength]
      by_cases none_ : added.length = 0
      · have bound := recorded.regBound
        have same := recorded.regCount
        omega
      · exact regBound (pos_of_ne_zero none_)
    · exact depositHead'
    · exact regHead'
    · intro reg member
      rcases mem_append.mp member with old | new
      · exact recorded.short reg old
      · exact short reg new
    · simp
    · intro p member
      rcases mem_append.mp member with old | new
      · have before := recorded.within p old
        rw [length_append]
        omega
      · rw [mem_singleton.mp new]
        exact ⟨le_refl _, le_refl _⟩
    · intro pin used
      by_cases fresh : pin = pendingChainsPin i'.pendingDepositHashChain
          i'.pendingChannelRegHashChain
      · refine ⟨(i'.depositCount, (regs ++ added).length), by simp, ?_, ?_⟩
        · rw [fresh, depositHead', regHead', ← length_deposits, pinAt_full]
        · rw [written, fresh, update_self, depositHead', regHead', regLength,
            ← length_deposits, entryAt_full]
      · rw [written, update_of_ne fresh] at used ⊢
        obtain ⟨p, member, pinned, entry⟩ := recorded.known pin used
        refine ⟨p, mem_append_left _ member, ?_, ?_⟩
        · rw [pinned, deposits, pinAt_append (within p member)]
        · rw [entry, deposits, entryAt_append (within p member)]

/-- Without collisions a new checkpoint overwrites none of the history. -/
theorem Kept.move (kept : Kept regs lives i) (recorded : Recorded regs lives i)
    (move : IntakeMove added i i') (free : CollisionFree i'.deposits (regs ++ added)) :
    Kept (regs ++ added) (lives ++ [(i'.depositCount, (regs ++ added).length)]) i' := by
  have after := recorded.move move
  intro p member
  have bound := after.within p member
  rcases move.appends with ⟨rfl, rfl⟩ | ⟨deposited, deposits, -, regCount, -, -, -,
    -, -, written⟩
  · rw [append_nil] at member ⊢
    rcases mem_append.mp member with old | new
    · exact kept p old
    · rw [mem_singleton.mp new]
      exact kept _ recorded.current
  · have pair : pendingChainsPin i'.pendingDepositHashChain i'.pendingChannelRegHashChain =
        pinAt i'.deposits (regs ++ added) (i'.depositCount, (regs ++ added).length) := by
      rw [after.depositHead, after.regHead, ← length_deposits, pinAt_full]
    by_cases live : p = (i'.depositCount, (regs ++ added).length)
    · subst live
      rw [written, pair, update_self, after.depositHead, after.regHead, after.regCount,
        ← length_deposits, entryAt_full]
    · -- an older pair has another pin, so the write misses it
      have apart : pinAt i'.deposits (regs ++ added) p ≠
          pendingChainsPin i'.pendingDepositHashChain i'.pendingChannelRegHashChain := by
        rw [pair]
        intro same
        apply live
        apply free.pin_inj after.short _ _ same
        · rw [length_deposits]
          exact bound
        · rw [length_deposits]
          exact ⟨le_refl _, le_refl _⟩
      have old : p ∈ lives := by
        rcases mem_append.mp member with old | new
        · exact old
        · exact absurd (mem_singleton.mp new) live
      have within : p.1 ≤ i.deposits.length ∧ p.2 ≤ regs.length := by
        rw [length_deposits]
        exact recorded.within p old
      rw [written, update_of_ne apart, deposits, pinAt_append within, entryAt_append within]
      exact kept p old

end

/-- The pair of chains after the first deposits and registrations, as a processed pair. -/
def pairAt (deposits : List DepositRecord) (regs : List ChannelRegistration) (p : Nat × Nat) :
    ProcessedPair :=
  { depositHashChain := depositChain (deposits.take p.1)
    channelRegHashChain := regChain (regs.take p.2)
    processedDepositCount := p.1 }

/-- Batch `k` was posted on the pair with counts `marks k`, and the counts never go back. -/
structure Processing (regs : List ChannelRegistration) (lives : List (Nat × Nat))
    (marks : Nat → Nat × Nat) (s : Rollup) : Prop where
  live : ∀ k, k ≤ s.chain.nextSubmissionId → marks k ∈ lives
  pair : ∀ k, k ≤ s.chain.nextSubmissionId →
    s.chain.processedAt k = pairAt s.intake.deposits regs (marks k)
  forward : ∀ k k', k ≤ k' → k' ≤ s.chain.nextSubmissionId →
    (marks k).1 ≤ (marks k').1 ∧ (marks k).2 ≤ (marks k').2

section
variable {regs added : List ChannelRegistration} {lives : List (Nat × Nat)}
  {marks : Nat → Nat × Nat} {s s' : Rollup}

/-- Deposits and registrations do not disturb what is processed. -/
theorem Processing.intake (processing : Processing regs lives marks s)
    (recorded : Recorded regs lives s.intake) (move : IntakeMove added s.intake s'.intake)
    (next : s'.chain.nextSubmissionId = s.chain.nextSubmissionId)
    (same : ∀ k, s'.chain.processedAt k = s.chain.processedAt k) {more : List (Nat × Nat)} :
    Processing (regs ++ added) (lives ++ more) marks s' := by
  constructor
  · intro k upTo
    exact mem_append_left _ (processing.live k (by omega))
  · intro k upTo
    have within := recorded.within _ (processing.live k (by omega))
    rw [same, processing.pair k (by omega)]
    have grown : ∃ deposited, s'.intake.deposits = s.intake.deposits ++ deposited := by
      rcases move.appends with ⟨unchanged, -⟩ | ⟨deposited, deposits, -⟩
      · exact ⟨[], by rw [unchanged, append_nil]⟩
      · exact ⟨deposited, deposits⟩
    obtain ⟨deposited, deposits⟩ := grown
    rw [deposits, pairAt, pairAt, take_append_of_le_length (by simpa using within.1),
      take_append_of_le_length within.2]
  · intro k k' before upTo
    exact processing.forward k k' before (by omega)

/-- The counts looked up for the processed pair are the last marks. -/
theorem Processing.counts (processing : Processing regs lives marks s)
    (kept : Kept regs lives s.intake) :
    processedCounts s =
      packCounts (marks s.chain.nextSubmissionId).1 (marks s.chain.nextSubmissionId).2 := by
  have pair := processing.pair _ (le_refl _)
  rw [Chain.processedAt_next] at pair
  have deposits := congrArg ProcessedPair.depositHashChain pair
  have regs' := congrArg ProcessedPair.channelRegHashChain pair
  simp only [pairAt] at deposits regs'
  have entry := kept _ (processing.live _ (le_refl _))
  unfold processedCounts
  rw [deposits, regs']
  exact congrArg PendingChainsCheckpoint.packedCounts entry

/-- A post moves the processed pair to a live pair that is not behind it. -/
theorem Processing.post {sat : Satellite σ} {cfg : Config} {env : Env} {args : PostArgs}
    {cursor : PostCursor σ} {submission : Submission} {j j' : σ}
    (processing : Processing regs lives marks s) (recorded : Recorded regs lives s.intake)
    (kept : Kept regs lives s.intake)
    (posts : Posts cfg sat env args cursor submission s s' j j') :
    ∃ p ∈ lives, args.expectedPendingChains = pinAt s.intake.deposits regs p ∧
      s'.chain.processedAt s'.chain.nextSubmissionId = pairAt s.intake.deposits regs p ∧
      (marks s.chain.nextSubmissionId).1 ≤ p.1 ∧ (marks s.chain.nextSubmissionId).2 ≤ p.2 ∧
      Processing regs lives (update marks (s.chain.nextSubmissionId + 1) p) s' := by
  obtain ⟨p, member, pinned, entry⟩ := recorded.known _ posts.known
  have bound := recorded.within p member
  have bound' := recorded.within _ (processing.live _ (le_refl s.chain.nextSubmissionId))
  have depositBound := recorded.depositBound
  have regBound := recorded.regBound
  have deposits := posts.deposits_ahead
  have regs' := posts.regs_ahead
  rw [processing.counts kept, entry] at deposits regs'
  simp only [entryAt] at deposits regs'
  rw [packedDepositCount_packCounts (by omega), packedDepositCount_packCounts (by omega)]
    at deposits
  rw [packedRegCount_packCounts (by omega) (by omega),
    packedRegCount_packCounts (by omega) (by omega)] at regs'
  have next : s'.chain.nextSubmissionId = s.chain.nextSubmissionId + 1 := by
    rw [posts.chain_eq]
    rfl
  have consumed : s'.chain.processedAt s'.chain.nextSubmissionId =
      pairAt s.intake.deposits regs p := by
    rw [Chain.processedAt_next, posts.chain_eq]
    simp only [postedChain, batchCheckpoint, entry, entryAt, pairAt]
    rw [packedDepositCount_packCounts (by omega)]
  have earlier {k : Nat} (upTo : k ≤ s.chain.nextSubmissionId) :
      s'.chain.processedAt k = s.chain.processedAt k := by
    rw [Chain.processedAt, if_pos (show k < s'.chain.nextSubmissionId by omega), posts.chain_eq]
    by_cases last : k = s.chain.nextSubmissionId
    · subst last
      rw [Chain.processedAt_next]
      simp [postedChain, postedMetadata]
    · rw [Chain.processedAt, if_pos (show k < s.chain.nextSubmissionId by omega)]
      simp only [postedChain, update_of_ne last]
  have old {k : Nat} (upTo : k ≤ s.chain.nextSubmissionId) :
      update marks (s.chain.nextSubmissionId + 1) p k = marks k := update_of_ne (by omega) _ _
  refine ⟨p, member, pinned, consumed, deposits, regs', ⟨?_, ?_, ?_⟩⟩
  · intro k upTo
    by_cases last : k = s.chain.nextSubmissionId + 1
    · subst last
      rw [update_self]
      exact member
    · rw [old (by omega)]
      exact processing.live k (by omega)
  · intro k upTo
    rw [posts.intake_eq]
    by_cases last : k = s.chain.nextSubmissionId + 1
    · subst last
      rw [update_self, ← next]
      exact consumed
    · rw [old (by omega), earlier (by omega)]
      exact processing.pair k (by omega)
  · intro k k' before upTo
    by_cases last : k' = s.chain.nextSubmissionId + 1
    · subst last
      rw [update_self]
      by_cases same : k = s.chain.nextSubmissionId + 1
      · subst same
        rw [update_self]
        exact ⟨le_refl _, le_refl _⟩
      · have order := processing.forward k s.chain.nextSubmissionId (by omega) (le_refl _)
        rw [old (by omega)]
        omega
    · rw [old (by omega), old (by omega)]
      exact processing.forward k k' before (by omega)

/-- A truncation goes back to the pair its first removed batch was posted on. -/
theorem Processing.truncate {sat : Satellite σ} {cfg : Config} {target : Nat} {forfeit : Bool}
    {t : Truncation σ} {j j' : σ} (processing : Processing regs lives marks s)
    (layout : s.chain.Layout) (live : target ≤ s.chain.nextSubmissionId)
    (truncates : Truncates cfg sat target forfeit t s s' j j') :
    Processing regs lives marks s' := by
  have next : s'.chain.nextSubmissionId = target := by
    rw [truncates.chain_eq]
  have chain := truncates.chain_retract live
  constructor
  · intro k upTo
    exact processing.live k (by omega)
  · intro k upTo
    rw [truncates.intake_eq, chain,
      processedAt_truncate layout (Nat.add_sub_of_le live).symm (by omega)]
    exact processing.pair k (by omega)
  · intro k k' before upTo
    exact processing.forward k k' before (by omega)

end

/-! ## Runs -/

section
variable {cfg : Config} {s s' : Rollup}

/-- Each pair of the history was the live pair of an earlier state of the run. -/
def WasLive (cfg : Config) (events : List Event) (s : Rollup) (p : Nat × Nat) : Prop :=
  ∃ before after u, events = before ++ after ∧ Run cfg before u ∧
    Path (Step cfg) u after s ∧ u.intake.depositCount = p.1 ∧ u.intake.channelRegCount = p.2 ∧
    u.intake.pendingDepositHashChain = depositChain (s.intake.deposits.take p.1) ∧
    u.intake.pendingChannelRegHashChain = regChain ((registrations events).take p.2)

/-- The history of a run: with no collision, checkpoints and processed pairs follow it. -/
structure History (cfg : Config) (events : List Event) (lives : List (Nat × Nat)) (s : Rollup) :
    Prop where
  layout : s.chain.Layout
  recorded : Recorded (registrations events) lives s.intake
  past : ∀ p ∈ lives, WasLive cfg events s p
  kept : CollisionFree s.intake.deposits (registrations events) →
    Kept (registrations events) lives s.intake
  processing : CollisionFree s.intake.deposits (registrations events) →
    ∃ marks, Processing (registrations events) lives marks s

omit [Keccak] in
theorem registrations_snoc (events : List Event) (e : Event) :
    registrations (events ++ [e]) = registrations events ++ e.registered := by
  simp [registrations]

theorem IntakeMove.deposits {added : List ChannelRegistration} {i i' : Intake}
    (move : IntakeMove added i i') : ∃ deposited, i'.deposits = i.deposits ++ deposited := by
  rcases move.appends with ⟨unchanged, -⟩ | ⟨deposited, deposits, -⟩
  · exact ⟨[], by rw [unchanged, append_nil]⟩
  · exact ⟨deposited, deposits⟩

theorem WasLive.snoc {events : List Event} {e : Event} {p : Nat × Nat}
    (past : WasLive cfg events s p) (step : Step cfg s e s')
    (within : p.1 ≤ s.intake.depositCount ∧ p.2 ≤ (registrations events).length) :
    WasLive cfg (events ++ [e]) s' p := by
  obtain ⟨before, after, u, cut, run, later, deposits, regs, depositHead, regHead⟩ := past
  obtain ⟨deposited, grown⟩ := (Step.intake step).deposits
  refine ⟨before, after ++ [e], u, by rw [cut, append_assoc], run, later.snoc step, deposits,
    regs, ?_, ?_⟩
  · rw [depositHead, grown, take_append_of_le_length (by simpa using within.1)]
  · rw [regHead, registrations_snoc, take_append_of_le_length within.2]

/-- The processed pairs after a completed call, the intake aside. -/
theorem Processing.effect {sat : Satellite σ} {env : Env} {action : ChainAction} {j j' : σ}
    {regs added : List ChannelRegistration} {lives : List (Nat × Nat)} {marks : Nat → Nat × Nat}
    (processing : Processing regs lives marks s) (layout : s.chain.Layout)
    (recorded : Recorded regs lives s.intake) (kept : Kept regs lives s.intake)
    (effect : ChainEffect cfg sat env action s s' j j')
    (move : IntakeMove added s.intake s'.intake) {more : List (Nat × Nat)} :
    ∃ marks', Processing (regs ++ added) (lives ++ more) marks' s' := by
  cases effect with
  | idle chain =>
    exact ⟨marks, processing.intake recorded move (by rw [chain]) (fun k => by rw [chain])⟩
  | bind chain =>
    exact ⟨marks, processing.intake recorded move (by rw [chain]) (fun k => by rw [chain])⟩
  | release => exact ⟨marks, processing.intake recorded move rfl (fun k => rfl)⟩
  | post posts =>
    obtain ⟨p, -, -, -, -, -, posted⟩ := processing.post recorded kept posts
    rw [← posts.intake_eq] at recorded move
    exact ⟨_, posted.intake recorded move rfl (fun k => rfl)⟩
  | finalize => exact ⟨marks, processing.intake recorded move rfl (fun k => rfl)⟩
  | truncate found _ truncates =>
    have truncated := processing.truncate layout
      (le_of_lt (layout.live_of_commitment found)) truncates
    rw [← truncates.intake_eq] at recorded move
    exact ⟨_, truncated.intake recorded move rfl (fun k => rfl)⟩

theorem History.initial (cfg : Config) : History cfg [] [(0, 0)] (initial cfg) := by
  have live : ∀ p ∈ [((0 : Nat), (0 : Nat))], p = (0, 0) := fun p member =>
    mem_singleton.mp member
  have written : (Rollup.initial cfg).intake.pendingChainsCheckpoints =
      update (fun _ => {}) (pinAt [] [] (0, 0)) (entryAt [] [] (0, 0)) := rfl
  refine ⟨initial_layout cfg, ?_, ?_, ?_, ?_⟩
  · refine
      { depositBound := Nat.two_pow_pos 64, regCount := rfl, regBound := Nat.two_pow_pos 64
        depositHead := rfl, regHead := rfl, short :=
          ?_, current := by simp [registrations, Rollup.initial,
          recordPendingChainsCheckpoint], within := ?_, known := ?_ }
    · intro reg member
      cases member
    · intro p member
      rw [live p member]
      exact ⟨le_refl _, le_refl _⟩
    · intro pin used
      refine ⟨(0, 0), by simp, ?_⟩
      rw [written] at used ⊢
      by_cases genesis : pin = pinAt [] [] (0, 0)
      · subst genesis
        exact ⟨rfl, update_self _ _ _⟩
      · rw [update_of_ne genesis] at used
        exact absurd rfl used
  · intro p member
    rw [live p member]
    exact ⟨[], [], Rollup.initial cfg, rfl, .nil, .nil, rfl, rfl, rfl, rfl⟩
  · intro _ p member
    rw [live p member, written]
    exact update_self _ _ _
  · intro _
    refine ⟨fun _ => (0, 0), ?_, ?_, ?_⟩
    · intro k _
      simp
    · intro k upTo
      rw [Nat.le_zero.mp upTo]
      rfl
    · intro k k' _ _
      exact ⟨le_refl _, le_refl _⟩

theorem History.step {events : List Event} {lives : List (Nat × Nat)} {e : Event}
    (history : History cfg events lives s) (run : Run cfg events s) (step : Step cfg s e s') :
    History cfg (events ++ [e])
      (lives ++ [(s'.intake.depositCount, (registrations events ++ e.registered).length)]) s' := by
  have move := Step.intake step
  obtain ⟨τ, sat, j, j', effect⟩ := Step.effect step
  obtain ⟨deposited, grown⟩ := move.deposits
  have recorded' := history.recorded.move move
  have earlier : CollisionFree s'.intake.deposits (registrations events ++ e.registered) →
      CollisionFree s.intake.deposits (registrations events) := by
    rw [grown]
    exact CollisionFree.before
  refine ⟨effect.layout history.layout, ?_, ?_, ?_, ?_⟩
  · rw [registrations_snoc]
    exact recorded'
  · intro p member
    rcases mem_append.mp member with old | new
    · exact (history.past p old).snoc step (history.recorded.within p old)
    · rw [mem_singleton.mp new]
      refine ⟨events ++ [e], [], s', by simp, run.snoc step, .nil, rfl,
        recorded'.regCount, ?_, ?_⟩
      · rw [recorded'.depositHead, take_of_length_le (by simp)]
      · rw [recorded'.regHead, registrations_snoc, take_of_length_le (le_refl _)]
  · rw [registrations_snoc]
    intro free
    exact (history.kept (earlier free)).move history.recorded move free
  · rw [registrations_snoc]
    intro free
    obtain ⟨marks, processing⟩ := history.processing (earlier free)
    exact Processing.effect (s := receive e.env.value s) ⟨processing.live, processing.pair,
      processing.forward⟩ history.layout history.recorded
      (history.kept (earlier free)) effect move

theorem run_history {events : List Event} (run : Run cfg events s) :
    ∃ lives, History cfg events lives s := by
  refine Path.history (I := fun events s => ∃ lives, History cfg events lives s)
    ⟨_, History.initial cfg⟩ ?_ run
  intro events t e u before ⟨lives, history⟩ step
  exact ⟨_, history.step before step⟩

/-- The counts the checkpoint of a pair was recorded with. -/
def Intake.countsOf (i : Intake) (pair : ProcessedPair) : Nat × Nat :=
  let pin := pendingChainsPin pair.depositHashChain pair.channelRegHashChain
  let packed := (i.pendingChainsCheckpoints pin).packedCounts
  (packedDepositCount packed, packedRegCount packed)

/-- A recorded pair: its chains fold the first records, as many as its counts say. -/
structure PrefixFold (regs : List ChannelRegistration) (i : Intake) (pair : ProcessedPair) :
    Prop where
  known : (i.pendingChainsCheckpoints
    (pendingChainsPin pair.depositHashChain pair.channelRegHashChain)).packedCounts ≠ 0
  checkpoint : i.pendingChainsCheckpoints
      (pendingChainsPin pair.depositHashChain pair.channelRegHashChain) =
    ⟨pair.depositHashChain, pair.channelRegHashChain,
      packCounts (i.countsOf pair).1 (i.countsOf pair).2⟩
  within : i.countsOf pair ≤ (i.depositCount, i.channelRegCount)
  processed : (i.countsOf pair).1 = pair.processedDepositCount
  deposits : pair.depositHashChain = depositChain (i.deposits.take pair.processedDepositCount)
  regs : pair.channelRegHashChain = regChain (regs.take (i.countsOf pair).2)

section
variable {regs : List ChannelRegistration} {lives : List (Nat × Nat)} {i : Intake} {p : Nat × Nat}

theorem Kept.countsOf (kept : Kept regs lives i) (recorded : Recorded regs lives i)
    (member : p ∈ lives) : i.countsOf (pairAt i.deposits regs p) = p := by
  have bound := recorded.within p member
  have depositBound := recorded.depositBound
  have regBound := recorded.regBound
  have packed : (i.pendingChainsCheckpoints (pinAt i.deposits regs p)).packedCounts =
      packCounts p.1 p.2 := by
    rw [kept p member]
    rfl
  have lookup : i.countsOf (pairAt i.deposits regs p) =
      (packedDepositCount (packCounts p.1 p.2), packedRegCount (packCounts p.1 p.2)) := by
    rw [← packed]
    rfl
  rw [lookup, packedDepositCount_packCounts (by omega),
    packedRegCount_packCounts (by omega) (by omega)]

theorem Kept.prefixFold (kept : Kept regs lives i) (recorded : Recorded regs lives i)
    (member : p ∈ lives) : PrefixFold regs i (pairAt i.deposits regs p) := by
  have counts := kept.countsOf recorded member
  have bound := recorded.within p member
  have entry : i.pendingChainsCheckpoints (pendingChainsPin (pairAt i.deposits regs
      p).depositHashChain (pairAt i.deposits regs p).channelRegHashChain) = entryAt i.deposits regs
      p := kept p member
  constructor
  · rw [entry]
    have depositBound := recorded.depositBound
    exact packCounts_ne_zero (by omega)
  · rw [entry, counts]
    rfl
  · rw [counts, recorded.regCount]
    exact ⟨bound.1, bound.2⟩
  · rw [counts]
    rfl
  · rfl
  · rw [counts]
    rfl

end

/-- Deposits and registrations are folded in order and none is lost: at every point
    of a run the processed pair is a recorded prefix of the intake, the pairs of the
    live batches never go back, and a post takes a pair that was live before it. -/
theorem checkpoints_never_lose_deposits {events : List Event} (run : Run cfg events s)
    (free : CollisionFree s.intake.deposits (registrations events)) :
    (s.intake.pendingDepositHashChain = depositChain s.intake.deposits ∧
      s.intake.deposits.length = s.intake.depositCount ∧
      s.intake.pendingChannelRegHashChain = regChain (registrations events) ∧
      (registrations events).length = s.intake.channelRegCount) ∧
    PrefixFold (registrations events) s.intake
      ⟨s.chain.depositHashChain, s.chain.channelRegHashChain, s.chain.processedDepositCount⟩ ∧
    (∀ k, k ≤ s.chain.nextSubmissionId →
      PrefixFold (registrations events) s.intake (s.chain.processedAt k)) ∧
    (∀ k k', k ≤ k' → k' ≤ s.chain.nextSubmissionId →
      s.intake.countsOf (s.chain.processedAt k) ≤ s.intake.countsOf (s.chain.processedAt k')) ∧
    ∀ e s' submitter args, Step cfg s e s' → e.action = .post submitter args →
      ∃ before after u, events = before ++ after ∧ Run cfg before u ∧
        Path (Step cfg) u after s ∧ args.expectedPendingChains =
          pendingChainsPin u.intake.pendingDepositHashChain u.intake.pendingChannelRegHashChain ∧
        s.intake.countsOf
            ⟨s.chain.depositHashChain, s.chain.channelRegHashChain,
              s.chain.processedDepositCount⟩ ≤
          (u.intake.depositCount, u.intake.channelRegCount) ∧
        s'.chain.depositHashChain = u.intake.pendingDepositHashChain ∧
        s'.chain.channelRegHashChain = u.intake.pendingChannelRegHashChain ∧
        s'.chain.processedDepositCount = u.intake.depositCount := by
  obtain ⟨lives, history⟩ := run_history run
  have recorded := history.recorded
  have kept := history.kept free
  obtain ⟨marks, processing⟩ := history.processing free
  have folded (k : Nat) (upTo : k ≤ s.chain.nextSubmissionId) :
      PrefixFold (registrations events) s.intake (s.chain.processedAt k) := by
    rw [processing.pair k upTo]
    exact kept.prefixFold recorded (processing.live k upTo)
  have counts (k : Nat) (upTo : k ≤ s.chain.nextSubmissionId) :
      s.intake.countsOf (s.chain.processedAt k) = marks k := by
    rw [processing.pair k upTo]
    exact kept.countsOf recorded (processing.live k upTo)
  refine ⟨⟨recorded.depositHead, s.intake.length_deposits, recorded.regHead,
    recorded.regCount.symm⟩, ?_, folded, ?_, ?_⟩
  · rw [← Chain.processedAt_next]
    exact folded _ (Nat.le_refl _)
  · intro k k' before upTo
    rw [counts k (by omega), counts k' upTo]
    exact processing.forward k k' before upTo
  · intro e s' submitter args step posting
    obtain ⟨τ, sat, j, j', effect⟩ := Step.effect step
    rw [posting] at effect
    cases effect with
    | post posts =>
      have before : Processing (registrations events) lives marks (receive e.env.value s) :=
        ⟨processing.live, processing.pair, processing.forward⟩
      obtain ⟨p, member, pinned, consumed, deposits, regs, -⟩ := before.post recorded kept posts
      -- the pair consumed was live in an earlier state of the run
      obtain ⟨start, later, u, cut, reached, path, depositCount, regCount,
          depositHead, regHead⟩ :=
        history.past p member
      refine ⟨start, later, u, cut, reached, path, ?_, ?_, ?_, ?_, ?_⟩
      · rw [pinned, depositHead, regHead]
        rfl
      · rw [← Chain.processedAt_next, counts _ (Nat.le_refl _), depositCount, regCount]
        exact ⟨deposits, regs⟩
      · rw [depositHead]
        rw [Chain.processedAt_next] at consumed
        exact congrArg ProcessedPair.depositHashChain consumed
      · rw [regHead]
        rw [Chain.processedAt_next] at consumed
        exact congrArg ProcessedPair.channelRegHashChain consumed
      · rw [depositCount]
        rw [Chain.processedAt_next] at consumed
        exact congrArg ProcessedPair.processedDepositCount consumed

end

end

section
attribute [local instance] evmKeccak

/-- A deposit, a registration, and a post on the pair between the two. -/
def samplePinnedCalls : List (Env × External × Call) :=
  let depositArgs : DepositArgs :=
    { recipient := 0xabc, tokenIndex := 0, amount := 10, auxData := 0 }
  let pin := pendingChainsPin (computeDepositHash 0 (depositArgs.record 4)) 0
  sampleSetup ++
  [(sampleEnv 4 10 2, sampleExternal, .deposit depositArgs),
   (sampleEnv 1 0 2, sampleExternal, .registerChannel
      { channelId := 7, bpMemberSlot := 0, delegateCount := 0, memberPkGs := [0x11, 0x12]
        pkBs := [0x21, 0x22], regevPkDigests := [0x31, 0x32], recipients := [0x41, 0x42] }),
   (sampleEnv 3 7 3, sampleExternal, .postBlockAndSubmit
      { subBlocks := [sampleBlock], stateRoot := 0x51, expectedPendingChains := pin })]

theorem checkpoints_never_lose_deposits_sample : ∃ events s, Run sampleConfig events s ∧
    CollisionFree s.intake.deposits (registrations events) ∧
    s.intake.depositCount = 1 ∧ s.intake.channelRegCount = 1 ∧
    s.chain.processedDepositCount = 1 ∧ s.chain.channelRegHashChain = 0 ∧
    PrefixFold (registrations events) s.intake
      ⟨s.chain.depositHashChain, s.chain.channelRegHashChain,
        s.chain.processedDepositCount⟩ := by
  have ran : runsTo sampleConfig sampleSatellite () samplePinnedCalls (fun events s =>
      let hashes := (CollisionFree.hashedList s.intake.deposits (registrations events)).map
        keccak256
      decide hashes.Nodup && !hashes.contains 0 && s.intake.depositCount == 1 &&
        s.intake.channelRegCount == 1 && s.chain.processedDepositCount == 1 &&
        s.chain.channelRegHashChain == 0) = true := by decide +kernel
  obtain ⟨events, s, run, facts⟩ := runsTo_run ran
  simp only [Bool.and_eq_true, beq_iff_eq, decide_eq_true_eq, Bool.not_eq_true',
    List.contains_eq_mem, decide_eq_false_iff_not] at facts
  obtain ⟨⟨⟨⟨⟨distinct, nonzero⟩, deposits⟩, regs⟩, processed⟩, chain⟩ := facts
  have free := CollisionFree.of_hashedList distinct nonzero
  exact ⟨events, s, run, free, deposits, regs, processed, chain,
    (checkpoints_never_lose_deposits run free).2.1⟩

end

end Intmax.Rollup
