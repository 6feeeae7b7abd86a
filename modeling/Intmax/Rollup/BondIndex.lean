import Intmax.Lib.Numbering
import Intmax.Rollup.Finality

/-! # The index discipline of posting bonds

A producer's live submissions are numbered by `postIndex` in the order of their
ids, its `posted` count is the last of these numbers, and a number is only
released once its batch is finalized history.  Posts append a number, truncations
remove the highest ones, and neither reaches what is released.

`chargeBond` writes the count at 48 bits without checking it, so the discipline
holds along runs in which no producer is at the last 48-bit count when it posts.
-/

namespace Intmax.Rollup

open Checked Transition Chain Function List

def Chain.submitter (c : Chain) (id : Nat) : Address := (c.submissions id).submitter

def Chain.postIndex (c : Chain) (id : Nat) : Nat := (c.submissions id).postIndex

/-- The ids of `p`'s live submissions, in increasing order. -/
def Chain.postsOf (c : Chain) (p : Address) : List Nat :=
  Numbering.owned c.submitter p c.nextSubmissionId

/-- The post indices of `p`'s live submissions, in increasing order of their ids. -/
def Chain.postIndices (c : Chain) (p : Address) : List Nat := (c.postsOf p).map c.postIndex

structure BondDiscipline (c : Chain) (bonds : Address → Bond) : Prop where
  indexed : ∀ p, c.postIndices p = List.range' 1 (bonds p).posted
  released_le : ∀ p, (bonds p).released ≤ (bonds p).posted
  released_final : ∀ id, id < c.nextSubmissionId →
    c.postIndex id ≤ (bonds (c.submitter id)).released →
    (c.batchMetadata id).endBlockNumber ≤ c.latestFinalizedBlockNumber

namespace BondDiscipline

variable {c : Chain} {bonds bonds' : Address → Bond}

theorem counts (discipline : BondDiscipline c bonds) (p : Address) :
    Numbering.Counts c.submitter c.postIndex p c.nextSubmissionId (bonds p).posted :=
  discipline.indexed p

/-- The discipline reads the two counts of a bond only. -/
theorem congr (discipline : BondDiscipline c bonds)
    (posted : ∀ p, (bonds' p).posted = (bonds p).posted)
    (released : ∀ p, (bonds' p).released = (bonds p).released) : BondDiscipline c bonds' := by
  constructor
  · intro p
    rw [posted]
    exact discipline.indexed p
  · intro p
    rw [posted, released]
    exact discipline.released_le p
  · intro id live small
    rw [released] at small
    exact discipline.released_final id live small

variable {id : Nat}

/-- A post that has not been finalized is not released. -/
theorem unreleased (discipline : BondDiscipline c bonds) (live : id < c.nextSubmissionId)
    (above : c.latestFinalizedBlockNumber < (c.batchMetadata id).endBlockNumber) :
    (bonds (c.submitter id)).released < c.postIndex id := by
  by_contra small
  have final := discipline.released_final id live (le_of_not_gt small)
  omega

/-- Releasing up to the number of a batch at or below the finalized height.  The chain may
    have moved its finalized height up, and nothing else that is read here. -/
theorem release (discipline : BondDiscipline c bonds) (layout : c.Layout) (c' : Chain)
    (next : c'.nextSubmissionId = c.nextSubmissionId) (submitters : c'.submitter = c.submitter)
    (indices : c'.postIndex = c.postIndex) (batches : c'.batchMetadata = c.batchMetadata)
    (height : c.latestFinalizedBlockNumber ≤ c'.latestFinalizedBlockNumber)
    (live : id < c.nextSubmissionId)
    (final : (c.batchMetadata id).endBlockNumber ≤ c'.latestFinalizedBlockNumber) {v : Vault}
    (same : v.bonds = bonds) :
    BondDiscipline c' (raiseReleased (c.submitter id) (c.postIndex id) v).bonds := by
  have numbered := (discipline.counts (c.submitter id)).bounds live rfl
  subst same
  unfold raiseReleased
  split
  · refine ⟨?_, ?_, ?_⟩
    · intro p
      simp only [postIndices, postsOf, next, submitters, indices]
      rw [← postsOf, ← postIndices, discipline.indexed p]
      by_cases own : p = c.submitter id
      · subst own
        simp
      · simp [update_of_ne own]
    · intro p
      by_cases own : p = c.submitter id
      · subst own
        simpa using numbered.2
      · simpa [update_of_ne own] using discipline.released_le p
    · intro id' live' small
      rw [next] at live'
      rw [submitters, indices] at small
      rw [batches]
      by_cases own : c.submitter id' = c.submitter id
      · -- a lower number of the same producer belongs to an earlier batch
        simp [own] at small
        have earlier : id' ≤ id := by
          by_contra later
          have := (discipline.counts (c.submitter id)).lt_of_lt (lt_of_not_ge later) live' rfl own
          omega
        have order := layout.mono (Nat.succ_le_succ earlier) live
        rw [heightBefore_succ, heightBefore_succ] at order
        omega
      · simp only [update_of_ne own] at small
        exact le_trans (discipline.released_final id' live' small) height
  · refine ⟨?_, discipline.released_le, ?_⟩
    · intro p
      simp only [postIndices, postsOf, next, submitters, indices]
      exact discipline.indexed p
    · intro id' live' small
      rw [next] at live'
      rw [submitters, indices] at small
      rw [batches]
      exact le_trans (discipline.released_final id' live' small) height

/-- Removing the newest batch, which is above the finalized height, and uncounting it. -/
theorem retract (discipline : BondDiscipline c bonds) (layout : c.Layout) {last : Nat}
    (next : c.nextSubmissionId = last + 1)
    (above : c.latestFinalizedBlockNumber ≤ c.heightBefore last)
    (uncounts : Uncounts (c.submitter last) bonds bonds') :
    BondDiscipline (Rollup.retract c) bonds' := by
  obtain ⟨-, grew, -, stop⟩ := layout.last_blocks next
  have counts (p : Address) := discipline.counts p
  rw [next] at counts
  have unreleased := discipline.unreleased (show last < c.nextSubmissionId by omega) (by omega)
  obtain ⟨positive, number, rest⟩ := (counts (c.submitter last)).pop rfl
  have kept {id : Nat} (earlier : id < last) : (Rollup.retract c).submissions id = c.submissions id
      ∧ (Rollup.retract c).batchMetadata id = c.batchMetadata id := retract_earlier c (by omega)
  have next' : (Rollup.retract c).nextSubmissionId = last := by
    rw [retract_next]
    omega
  refine ⟨?_, ?_, ?_⟩
  · intro p
    have below : Numbering.Counts c.submitter c.postIndex p last (bonds' p).posted := by
      by_cases own : p = c.submitter last
      · subst own
        rw [uncounts.posted]
        exact rest
      · rw [uncounts.others p own]
        exact (counts p).unskip (fun same => own same.symm)
    show Numbering.Counts _ _ p _ _
    rw [next']
    apply below.congr
    · intro id earlier
      simp only [submitter, (kept earlier).1]
    · intro id earlier
      simp only [postIndex, (kept earlier).1]
  · intro p
    rw [uncounts.released]
    by_cases own : p = c.submitter last
    · subst own
      rw [uncounts.posted]
      omega
    · rw [uncounts.others p own]
      exact discipline.released_le p
  · intro id live small
    rw [next'] at live
    rw [uncounts.released] at small
    simp only [submitter, postIndex, (kept live).1] at small
    rw [(kept live).2, retract_finalizedHeight]
    exact discipline.released_final id (by omega) small

end BondDiscipline

/-! ## Truncation -/

section
variable {σ : Type} {sat : Satellite σ} {cfg : Config} {exit offender : Address} {forfeit : Bool}

variable {target n : Nat} {t t' : Truncation σ}

/-- The loop keeps the discipline, under the id counter it would have at each pass. -/
theorem truncateLoop_discipline (h : truncateLoop cfg sat exit offender forfeit target n t = .ok t')
    (layout : (t.chain.withNext (target + n)).Layout)
    (above : t.chain.latestFinalizedBlockNumber ≤ t.chain.heightBefore target)
    (discipline : BondDiscipline (t.chain.withNext (target + n)) t.bonds) :
    BondDiscipline (t'.chain.withNext target) t'.bonds := by
  induction n generalizing t with
  | zero =>
    cases h
    exact discipline
  | succ n ih =>
    obtain ⟨t₁, first, rest⟩ := bind_ok.mp h
    have removes := truncateOne_ok first
    have chain := removes.retract_chain
    have next : (t.chain.withNext (target + (n + 1))).nextSubmissionId = target + n + 1 := rfl
    have clear : t.chain.latestFinalizedBlockNumber ≤ t.chain.heightBefore (target + n) :=
      le_trans above (layout.mono (Nat.le_add_right _ _) (by rw [next]; omega))
    refine ih rest ?_ ?_ ?_
    · rw [chain]
      exact layout.retract next
    · have height := congrArg latestFinalizedBlockNumber chain
      rw [retract_finalizedHeight] at height
      have before : t₁.chain.heightBefore target = t.chain.heightBefore target := by
        apply heightBefore_congr
        intro k earlier
        have kept := retract_earlier (t.chain.withNext (target + n + 1))
          (show k < target + n + 1 - 1 by omega)
        rw [← chain] at kept
        exact kept.2
      rw [before]
      exact le_trans (le_of_eq height) above
    · rw [chain]
      exact discipline.retract layout next clear removes.uncounts

theorem raiseReleased_posted (producer p : Address) (postIndex : Nat) (v : Vault) :
    ((raiseReleased producer postIndex v).bonds p).posted = (v.bonds p).posted := by
  unfold raiseReleased
  split
  · by_cases own : p = producer
    · subst own
      simp
    · simp [update_of_ne own]
  · rfl

theorem Uncounts.posted_le {producer : Address} {bonds bonds' : Address → Bond}
    (uncounts : Uncounts producer bonds bonds') (p : Address) :
    (bonds' p).posted ≤ (bonds p).posted := by
  by_cases own : p = producer
  · subst own
    rw [uncounts.posted]
    omega
  · exact le_of_eq (uncounts.others p own)

theorem truncateLoop_posted_le (h : truncateLoop cfg sat exit offender forfeit target n t = .ok t')
    (p : Address) : (t'.bonds p).posted ≤ (t.bonds p).posted := by
  induction n generalizing t with
  | zero =>
    cases h
    exact le_refl _
  | succ n ih =>
    obtain ⟨t₁, first, rest⟩ := bind_ok.mp h
    exact le_trans (ih rest) ((truncateOne_ok first).uncounts.posted_le p)

/-- Where the truncation loop reaches submission `k`, its post is counted and unreleased. -/
theorem truncateLoop_unreleased {s : Rollup} {j : σ} {k : Nat} (layout : s.chain.Layout)
    (discipline : BondDiscipline s.chain s.vault.bonds)
    (above : s.chain.latestFinalizedBlockNumber < (s.chain.batchMetadata target).startBlockNumber)
    (from_ : target ≤ k) (live : k < s.chain.nextSubmissionId)
    (reached : truncateLoop cfg sat exit offender forfeit (k + 1)
      (s.chain.nextSubmissionId - (k + 1))
      { chain := s.chain, bonds := s.vault.bonds, satellite := j,
        offenderForfeited := 0, othersForfeited := 0 } = .ok t) :
    (t.bonds (t.chain.submitter k)).released < t.chain.postIndex k ∧
    1 ≤ (t.bonds (t.chain.submitter k)).posted := by
  have start := layout.start target (by omega)
  have order := layout.mono from_ (le_of_lt live)
  have nonempty := layout.nonempty k live
  obtain ⟨-, batch, height⟩ := truncateLoop_reaches reached
  have whole : s.chain.withNext (k + 1 + (s.chain.nextSubmissionId - (k + 1))) = s.chain := by
    rw [Nat.add_sub_cancel' live]
    rfl
  have kept := truncateLoop_discipline reached (by rw [whole]; exact layout)
    (show s.chain.latestFinalizedBlockNumber ≤ s.chain.heightBefore (k + 1) by omega)
    (by rw [whole]; exact discipline)
  refine ⟨kept.unreleased (lt_add_one k) ?_, ?_⟩
  · show t.chain.latestFinalizedBlockNumber < (t.chain.batchMetadata k).endBlockNumber
    rw [batch, height]
    rw [heightBefore_succ] at nonempty
    show s.chain.latestFinalizedBlockNumber < (s.chain.batchMetadata k).endBlockNumber
    omega
  · exact ((kept.counts (t.chain.submitter k)).pop rfl).1

/-- The live posts of `p` that a fraud proof could still remove. -/
def Chain.removablePosts (c : Chain) (p : Address) : Nat :=
  (c.postsOf p).countP fun id =>
    decide (c.latestFinalizedBlockNumber < (c.batchMetadata id).startBlockNumber)

theorem removablePosts_le {s : Rollup} (layout : s.chain.Layout)
    (discipline : BondDiscipline s.chain s.vault.bonds) (p : Address) :
    s.chain.removablePosts p ≤ (s.vault.bonds p).posted - (s.vault.bonds p).released := by
  apply (discipline.counts p).countP_le
  intro id live own removable
  have nonempty := layout.nonempty id live
  have start := layout.start id live
  rw [heightBefore_succ] at nonempty
  rw [decide_eq_true_eq] at removable
  rw [← own]
  exact discipline.unreleased live (by omega)

end

/-! ## Effects -/

section
variable [Keccak] {σ : Type} {sat : Satellite σ} {cfg : Config} {env : Env} {s s' : Rollup}
  {j j' : σ}

variable {args : PostArgs} {action : ChainAction} {events : List Event} {n : Nat}

/-- A post of a producer below the 48-bit limit is numbered next. -/
theorem Posts.discipline {cursor : PostCursor σ} {submission : Submission}
    (posts : Posts cfg sat env args cursor submission s s' j j')
    (discipline : BondDiscipline s.chain s.vault.bonds)
    (limit : (s.vault.bonds env.sender).posted + 1 < 2 ^ 48) :
    BondDiscipline s'.chain s'.vault.bonds := by
  have number : submission.postIndex = (s.vault.bonds env.sender).posted + 1 := by
    rw [posts.index_eq, Nat.mod_eq_of_lt limit]
  have next : s'.chain.nextSubmissionId = s.chain.nextSubmissionId + 1 := by
    rw [posts.chain_eq]
    rfl
  have last : s'.chain.submissions s.chain.nextSubmissionId = submission := by
    rw [posts.chain_eq]
    exact update_self _ _ _
  have kept {id : Nat} (earlier : id < s.chain.nextSubmissionId) :
      s'.chain.submissions id = s.chain.submissions id ∧
      s'.chain.batchMetadata id = s.chain.batchMetadata id := by
    rw [posts.chain_eq]
    exact ⟨update_of_ne (ne_of_lt earlier) _ _, update_of_ne (ne_of_lt earlier) _ _⟩
  have height : s'.chain.latestFinalizedBlockNumber = s.chain.latestFinalizedBlockNumber := by
    rw [posts.chain_eq]
    rfl
  have released (p : Address) : (s'.vault.bonds p).released = (s.vault.bonds p).released := by
    rw [posts.vault_eq]
    by_cases own : p = env.sender
    · subst own
      simp [chargedBond]
    · simp [update_of_ne own]
  have others {p : Address} (other : p ≠ env.sender) :
      (s'.vault.bonds p).posted = (s.vault.bonds p).posted := by
    rw [posts.vault_eq]
    simp [update_of_ne other]
  have counted : (s'.vault.bonds env.sender).posted = (s.vault.bonds env.sender).posted + 1 := by
    rw [posts.vault_eq]
    simp only [update_self, chargedBond]
    exact Nat.mod_eq_of_lt limit
  refine ⟨?_, ?_, ?_⟩
  · intro p
    show Numbering.Counts _ _ p _ _
    have earlier : Numbering.Counts s'.chain.submitter s'.chain.postIndex p
        s.chain.nextSubmissionId (s.vault.bonds p).posted := by
      apply (discipline.counts p).congr
      · intro id before
        simp only [submitter, (kept before).1]
      · intro id before
        simp only [postIndex, (kept before).1]
    rw [next]
    by_cases own : p = env.sender
    · subst own
      rw [counted]
      apply earlier.push
      · rw [submitter, last, posts.submitter_eq]
      · rw [postIndex, last, number]
    · rw [others own]
      apply earlier.skip
      rw [submitter, last, posts.submitter_eq]
      exact fun same => own same.symm
  · intro p
    have before := discipline.released_le p
    rw [released]
    by_cases own : p = env.sender
    · subst own
      rw [counted]
      omega
    · rw [others own]
      exact before
  · intro id live small
    rw [released] at small
    by_cases fresh : id = s.chain.nextSubmissionId
    · -- the new number is above every released one
      subst fresh
      rw [postIndex, submitter, last, number, posts.submitter_eq] at small
      have before := discipline.released_le env.sender
      omega
    · have before : id < s.chain.nextSubmissionId := by omega
      simp only [submitter, postIndex, (kept before).1] at small
      rw [(kept before).2, height]
      exact discipline.released_final id before small

/-- The producer of an accepted post was below the last 48-bit count before it. -/
def WithinPostLimit (s : Rollup) (e : Event) : Prop :=
  match e.action with
  | .post producer _ => (s.vault.bonds producer).posted + 1 < 2 ^ 48
  | _ => True

theorem ChainEffect.discipline (effect : ChainEffect cfg sat env action s s' j j')
    (layout : s.chain.Layout) (discipline : BondDiscipline s.chain s.vault.bonds)
    (limit : ∀ producer args, action = .post producer args →
      (s.vault.bonds producer).posted + 1 < 2 ^ 48) : BondDiscipline s'.chain s'.vault.bonds := by
  cases effect with
  | idle chain same =>
    rw [chain]
    exact discipline.congr (fun p => (same p).1) (fun p => (same p).2)
  | bind chain vault =>
    rw [chain, vault]
    exact discipline
  | @release s j producer id nonzero submitter final =>
    have live : id < s.chain.nextSubmissionId := by
      apply layout.live_of_submission
      intro fresh
      rw [fresh] at submitter
      exact nonzero submitter.symm
    subst submitter
    exact discipline.release layout _ rfl rfl rfl rfl (le_refl _) live final rfl
  | post posts => exact posts.discipline discipline (limit _ _ rfl)
  | @finalize s j world args checked =>
    obtain ⟨found, -, -, height, forward⟩ := checkFinalize_ok checked
    have live := layout.live_of_commitment found
    refine discipline.release layout (markFinalized args s.chain) rfl ?_ ?_ rfl forward live
      (le_of_eq height.symm) rfl
    · funext id
      by_cases same : id = args.submissionId
      · subst same
        simp [submitter, markFinalized]
      · simp [submitter, markFinalized, update_of_ne same]
    · funext id
      by_cases same : id = args.submissionId
      · subst same
        simp [postIndex, markFinalized]
      · simp [postIndex, markFinalized, update_of_ne same]
  | @truncate s s' j j' target forfeit t found above truncates =>
    have live := layout.live_of_commitment found
    have start := layout.start target live
    have whole : s.chain.withNext (target + (s.chain.nextSubmissionId - target)) = s.chain := by
      rw [Nat.add_sub_cancel' (le_of_lt live)]
      rfl
    have kept := truncateLoop_discipline truncates.loop (by rw [whole]; exact layout)
      (show s.chain.latestFinalizedBlockNumber ≤ s.chain.heightBefore target by omega)
      (by rw [whole]; exact discipline)
    rw [truncates.chain_eq]
    exact kept.congr truncates.posted_eq truncates.released_eq

/-! ## Runs within the limit -/

/-- A completed call whose producer, if it posts, is below the last 48-bit count. -/
def LimitedStep (cfg : Config) (s : Rollup) (e : Event) (t : Rollup) : Prop :=
  Step cfg s e t ∧ WithinPostLimit s e

theorem LimitedStep.discipline {e : Event} (step : LimitedStep cfg s e s')
    (layout : s.chain.Layout) (discipline : BondDiscipline s.chain s.vault.bonds) :
    BondDiscipline s'.chain s'.vault.bonds := by
  obtain ⟨ran, limit⟩ := step
  obtain ⟨τ, sat, j, j', effect⟩ := Step.effect ran
  refine effect.discipline layout discipline ?_
  intro producer args action
  simp only [WithinPostLimit, action] at limit
  exact limit

theorem initial_discipline (cfg : Config) :
    BondDiscipline (initial cfg).chain (initial cfg).vault.bonds := by
  refine ⟨fun p => rfl, fun p => Nat.le_refl 0, ?_⟩
  intro id live
  exact absurd live (Nat.not_lt_zero id)

theorem limited_discipline (run : Path (LimitedStep cfg) (initial cfg) events s) :
    s.chain.Layout ∧ BondDiscipline s.chain s.vault.bonds := by
  refine run.invariant (I := fun s => s.chain.Layout ∧ BondDiscipline s.chain s.vault.bonds) ?_
    ⟨initial_layout cfg, initial_discipline cfg⟩
  intro s e t ⟨layout, discipline⟩ step
  obtain ⟨τ, sat, j, j', effect⟩ := Step.effect step.1
  exact ⟨effect.layout layout, step.discipline layout discipline⟩

/-- A call counts at most one more post for each producer. -/
theorem ChainEffect.posted_le (effect : ChainEffect cfg sat env action s s' j j') (p : Address) :
    (s'.vault.bonds p).posted ≤ (s.vault.bonds p).posted + 1 := by
  cases effect with
  | idle _ same =>
    rw [(same p).1]
    omega
  | bind _ vault =>
    rw [vault]
    omega
  | release =>
    rw [raiseReleased_posted]
    omega
  | post posts =>
    rw [posts.vault_eq]
    by_cases own : p = env.sender
    · subst own
      simp [chargedBond]
      exact Nat.mod_le _ _
    · simp [update_of_ne own]
  | finalize =>
    rw [raiseReleased_posted]
    omega
  | truncate _ _ truncates =>
    have loop := truncateLoop_posted_le truncates.loop p
    rw [truncates.posted_eq]
    exact le_trans loop (Nat.le_succ _)

/-- Fewer than `2 ^ 48` calls cannot bring a producer to the limit. -/
theorem short_run_limited (run : Run cfg events s) (short : events.length < 2 ^ 48) :
    Path (LimitedStep cfg) (initial cfg) events s := by
  refine (Path.history (I := fun events s => (∀ p, (s.vault.bonds p).posted ≤ events.length) ∧
    (events.length < 2 ^ 48 → Path (LimitedStep cfg) (initial cfg) events s)) ?_ ?_ run).2 short
  · exact ⟨fun p => le_refl 0, fun _ => .nil⟩
  · intro events t e u _ ⟨counts, limited⟩ step
    obtain ⟨τ, sat, j, j', effect⟩ := Step.effect step
    have grown (p : Address) : (u.vault.bonds p).posted ≤ (t.vault.bonds p).posted + 1 :=
      effect.posted_le p
    refine ⟨?_, ?_⟩
    · intro p
      have before := counts p
      have after := grown p
      simp
      omega
    · intro fewer
      simp at fewer
      refine (limited (by omega)).snoc ⟨step, ?_⟩
      unfold WithinPostLimit
      split
      · rename_i producer _ _
        have before := counts producer
        omega
      · trivial

/-- In every run within the limit the bonds keep their index discipline: the live posts of
    each producer are numbered `1, …, posted`, the released ones are finalized history, no
    truncation takes back a released or uncounted post, and a bond withdrawal leaves the
    stake of every post that can still be removed. -/
theorem bond_index_discipline {events : List Event}
    (run : Path (LimitedStep cfg) (initial cfg) events s) :
    BondDiscipline s.chain s.vault.bonds ∧
    (∀ (τ : Type) (sat : Satellite τ) (j : τ) (offender : Address) (forfeit : Bool)
      (target k : Nat) (t : Truncation τ),
      s.chain.latestFinalizedBlockNumber < (s.chain.batchMetadata target).startBlockNumber →
      target ≤ k → k < s.chain.nextSubmissionId →
      truncateLoop cfg sat s.roles.channelExitMaterializer offender forfeit (k + 1)
        (s.chain.nextSubmissionId - (k + 1))
        { chain := s.chain, bonds := s.vault.bonds, satellite := j,
          offenderForfeited := 0, othersForfeited := 0 } = .ok t →
      (t.bonds (t.chain.submitter k)).released < t.chain.postIndex k ∧
      1 ≤ (t.bonds (t.chain.submitter k)).posted) ∧
    (∀ env amount s', withdrawBond cfg env amount s = .ok s' →
      0 < s.chain.removablePosts env.sender →
      cfg.baseStake + s.chain.removablePosts env.sender * cfg.postStake ≤
        (s'.vault.bonds env.sender).balance) := by
  obtain ⟨layout, discipline⟩ := limited_discipline run
  refine ⟨discipline, ?_, ?_⟩
  · intro τ sat j offender forfeit target k t above from_ live reached
    exact truncateLoop_unreleased layout discipline above from_ live reached
  · intro env amount s' withdrawn some_
    obtain ⟨-, locked, -, -, rfl⟩ := withdrawBond_ok withdrawn
    have bound := removablePosts_le layout discipline env.sender
    have stake := Nat.mul_le_mul_right cfg.postStake bound
    simp [enter]
    omega

/-! ## Past the limit

A producer that posts `2 ^ 48` times without losing a post is counted as having
posted nothing.
-/

/-- A one-block batch on the current checkpoint is accepted when its bond covers it. -/
theorem postBlockAndSubmit_succeeds {world : External} {block : SubBlock} {commitment : Bytes32}
    (open_ : s.roles.status = none) (devnet : env.chainId = rollupLocalDevnetChainId)
    (allowed : s.roles.isBlockProducer env.sender = true)
    (unbound : s.roles.channelExitMaterializer = 0) (blobs : s.roles.kzgVerifier ≠ 0)
    (single : args.subBlocks = [block])
    (known : (s.intake.pendingChainsCheckpoints args.expectedPendingChains).packedCounts ≠ 0)
    (current : processedCounts s =
      (s.intake.pendingChainsCheckpoints args.expectedPendingChains).packedCounts)
    (number : s.chain.blockNumber + 1 < 2 ^ 64) (round : s.chain.postingRound + 1 < 2 ^ 64)
    (next : s.chain.nextSubmissionId + 1 < 2 ^ 256)
    (committed : world.postCommitment args.stateRoot (env.number % 2 ^ 40)
      s.chain.nextSubmissionId = some commitment)
    (counted : (s.vault.bonds env.sender).released ≤ (s.vault.bonds env.sender).posted)
    (posted : (s.vault.bonds env.sender).posted < 2 ^ 48)
    (covered : cfg.baseStake + ((s.vault.bonds env.sender).posted + 1 -
      (s.vault.bonds env.sender).released) * cfg.postStake ≤
        (s.vault.bonds env.sender).balance + env.value)
    (width : (s.vault.bonds env.sender).balance + env.value < 2 ^ 96) :
    ∃ r, postBlockAndSubmit cfg sat env world args s j = .ok r := by
  simp only [processedCounts] at current
  simp [postBlockAndSubmit, nonReentrant, postBlockAndSubmitPinned, postBlockAndSubmitAt, open_,
    devnet, allowed, unbound, single, known, current, postBlock, submit, chargeBond,
    postSubBlocks, postSubBlock, recordSigned, startCursor]
  exact ⟨number, round, number, next, blobs, ⟨commitment, committed⟩, by omega, by omega,
    Nat.le_sub_one_of_lt width, by omega, by omega, by omega, covered⟩

/-- The deployment with a producer at address 3 with a bond of `10 ^ 15` wei. -/
def bondedState : Rollup :=
  { initial sampleConfig with
    vault :=
      { balance := 1000000000000000
        bonds := Function.update (fun _ => {}) 3 ⟨1000000000000000, 0, 0⟩ }
    roles :=
      { kzgVerifier := 0x99, isBlockProducer := Function.update (fun _ => false) 3 true } }

def bondedEvents : List Event :=
  [⟨sampleEnv 1 0 1, .setKzgVerifier 0x99, .done⟩,
   ⟨sampleEnv 1 0 1, .setBlockProducer 3 true, .done⟩,
   ⟨sampleEnv 3 1000000000000000 1, .depositBond, .done⟩]

theorem bondedState_run : Run sampleConfig bondedEvents bondedState := by
  have ran : execAll sampleConfig sampleSatellite
      (sampleSetup ++ [(sampleEnv 3 1000000000000000 1, sampleExternal, .depositBond)])
      (initial sampleConfig) () = .ok (bondedEvents, bondedState, ()) := by
    simp [sampleSetup, execAll, exec, dispatch, quiet, setKzgVerifier, setBlockProducer,
      depositBond, nonPayable, requireDeployer, requireReleaseRuntime, nonReentrant, sampleEnv,
      sampleConfig, sampleExternal, receive, initial, bondedState, bondedEvents, uint96Max]
  exact execAll_path ran

/-- The state after `n` posts of the bonded producer, as far as the next post reads it. -/
structure AfterPosts (n : Nat) (s : Rollup) : Prop where
  idle : s.roles.status = none
  producer : s.roles.isBlockProducer 3 = true
  unbound : s.roles.channelExitMaterializer = 0
  blobs : s.roles.kzgVerifier ≠ 0
  intake : s.intake = (initial sampleConfig).intake
  deposits : s.chain.depositHashChain = 0
  regs : s.chain.channelRegHashChain = 0
  number : s.chain.blockNumber = n
  round : s.chain.postingRound = n
  next : s.chain.nextSubmissionId = n
  bond : s.vault.bonds 3 = ⟨1000000000000000, n % 2 ^ 48, 0⟩
  submitters : ∀ id, id < n → s.chain.submitter id = 3

theorem AfterPosts.zero : AfterPosts 0 bondedState := by
  constructor
  case submitters =>
    intro id below
    exact absurd below (Nat.not_lt_zero id)
  all_goals simp [bondedState, initial]

def postEvent : Event := ⟨sampleEnv 3 0 2, (samplePost 0 2).2.2, .done⟩

theorem AfterPosts.accepted (after : AfterPosts n s) (below : n < 2 ^ 48) :
    ∃ s', Step sampleConfig s postEvent s' ∧ AfterPosts (n + 1) s' := by
  have bound : n % 2 ^ 48 = n := Nat.mod_eq_of_lt below
  have checkpoint : s.intake.pendingChainsCheckpoints (pendingChainsPin 0 0) = ⟨0, 0, 1⟩ := by
    rw [after.intake]
    exact update_self _ _ _
  generalize post : (⟨[sampleBlock], 0x51, pendingChainsPin 0 0⟩ : PostArgs) = args
  have pin : args.expectedPendingChains = pendingChainsPin 0 0 := by rw [← post]
  obtain ⟨⟨s', j'⟩, ran⟩ : ∃ r, postBlockAndSubmit sampleConfig sampleSatellite
      (sampleEnv 3 0 2) sampleExternal args s () = .ok r := by
    apply postBlockAndSubmit_succeeds after.idle rfl after.producer after.unbound after.blobs
      (by rw [← post])
    · rw [pin, checkpoint]
      decide
    · rw [pin, processedCounts, after.deposits, after.regs]
    · rw [after.number]
      omega
    · rw [after.round]
      omega
    · rw [after.next]
      omega
    · rfl
    · simp only [sampleEnv, after.bond]
      omega
    · simp only [sampleEnv, after.bond]
      omega
    · simp only [sampleEnv, after.bond, sampleConfig]
      omega
    · simp only [sampleEnv, after.bond]
      omega
  refine ⟨s', ⟨Unit, sampleSatellite, sampleExternal, (), j', ?_⟩, ?_⟩
  · show quietWith (postBlockAndSubmit sampleConfig sampleSatellite
      (sampleEnv 3 0 2) sampleExternal ⟨[sampleBlock], 0x51, pendingChainsPin 0 0⟩
        (receive 0 s) ()) = _
    rw [receive_zero, post, ran]
    rfl
  · obtain ⟨cursor, submission, posts⟩ := postBlockAndSubmit_ok ran
    have height := posts.loop.height
    have kept {id : Nat} (earlier : id < n) :
        s'.chain.submissions id = s.chain.submissions id := by
      rw [posts.chain_eq]
      exact update_of_ne (by rw [after.next]; omega) _ _
    have batch : s.intake.batchCheckpoint args.expectedPendingChains = ⟨0, 0, 0⟩ := by
      simp only [Intake.batchCheckpoint, pin, checkpoint]
      rfl
    constructor
    · rw [posts.roles_eq]
      exact after.idle
    · rw [posts.roles_eq]
      exact after.producer
    · rw [posts.roles_eq]
      exact after.unbound
    · rw [posts.roles_eq]
      exact after.blobs
    · rw [posts.intake_eq]
      exact after.intake
    · rw [posts.chain_eq, batch]
      rfl
    · rw [posts.chain_eq, batch]
      rfl
    · rw [posts.chain_eq]
      show cursor.currentBlockNumber = n + 1
      rw [height, ← post]
      simp [startCursor, after.number]
    · rw [posts.chain_eq]
      show s.chain.postingRound + 1 = n + 1
      rw [after.round]
    · rw [posts.chain_eq]
      show s.chain.nextSubmissionId + 1 = n + 1
      rw [after.next]
    · rw [posts.vault_eq]
      show update s.vault.bonds 3 (chargedBond (s.vault.bonds 3) 0) 3 = _
      rw [update_self, after.bond, chargedBond, bound]
    · intro id earlier
      by_cases last : id = n
      · subst last
        rw [submitter, posts.chain_eq]
        show (update s.chain.submissions s.chain.nextSubmissionId submission id).submitter = 3
        rw [after.next, update_self, posts.submitter_eq]
        rfl
      · rw [submitter, kept (by omega)]
        exact after.submitters id (by omega)

theorem AfterPosts.run (most : n ≤ 2 ^ 48) :
    ∃ s, Run sampleConfig (bondedEvents ++ replicate n postEvent) s ∧ AfterPosts n s := by
  induction n with
  | zero => exact ⟨bondedState, by simpa using bondedState_run, AfterPosts.zero⟩
  | succ n ih =>
    obtain ⟨s, run, after⟩ := ih (by omega)
    obtain ⟨s', step, after'⟩ := after.accepted (by omega)
    refine ⟨s', ?_, after'⟩
    rw [replicate_succ', ← append_assoc]
    exact run.snoc step

/-- At a multiple of the limit the count starts over while every submission is live. -/
theorem AfterPosts.wrapped (after : AfterPosts (n + 1) s) (multiple : (n + 1) % 2 ^ 48 = 0) :
    (s.vault.bonds 3).posted = 0 ∧ ¬ BondDiscipline s.chain s.vault.bonds := by
  have count : (s.vault.bonds 3).posted = 0 := by
    rw [after.bond]
    exact multiple
  refine ⟨count, ?_⟩
  intro discipline
  have counts := discipline.counts 3
  rw [after.next, count] at counts
  have positive := (counts.pop (after.submitters n (lt_add_one n))).1
  omega

end

section
attribute [local instance] evmKeccak

/-- Two posts, the second finalized, and a third one on top. -/
theorem bond_index_discipline_sample : ∃ events s,
    Path (LimitedStep sampleConfig) (initial sampleConfig) events s ∧
    s.chain.nextSubmissionId = 3 ∧ (s.vault.bonds 3).posted = 3 ∧
      (s.vault.bonds 3).released = 2 ∧
    s.chain.postIndices 3 = [1, 2, 3] := by
  have ran : runsTo sampleConfig sampleSatellite ()
      (sampleSetup ++ [samplePost 9 2, samplePost 0 3, sampleFinalize, samplePost 0 6])
      (fun events s => s.chain.nextSubmissionId == 3 && (s.vault.bonds 3).posted == 3 &&
        (s.vault.bonds 3).released == 2 && decide (events.length < 7)) = true := by decide +kernel
  obtain ⟨events, s, run, facts⟩ := runsTo_run ran
  simp only [Bool.and_eq_true, beq_iff_eq, decide_eq_true_eq] at facts
  obtain ⟨⟨⟨next, posted⟩, released⟩, few⟩ := facts
  have limited := short_run_limited run (by omega)
  have indexed := (bond_index_discipline limited).1.indexed 3
  rw [posted] at indexed
  exact ⟨events, s, limited, next, posted, released, indexed⟩

/-- One producer posts `2 ^ 48` batches: the last one resets its count to zero. -/
theorem post_count_wraps : ∃ n s, n = 2 ^ 48 ∧
    Run sampleConfig (bondedEvents ++ List.replicate n postEvent) s ∧
    s.chain.nextSubmissionId = n ∧ (s.vault.bonds 3).posted = 0 ∧
    ¬ BondDiscipline s.chain s.vault.bonds := by
  obtain ⟨m, full⟩ : ∃ m, m + 1 = 2 ^ 48 := ⟨2 ^ 48 - 1, by omega⟩
  obtain ⟨s, run, after⟩ := AfterPosts.run (Nat.le_of_eq full)
  obtain ⟨count, broken⟩ := after.wrapped (by omega)
  exact ⟨m + 1, s, full, run, after.next, count, broken⟩

end

end Intmax.Rollup
